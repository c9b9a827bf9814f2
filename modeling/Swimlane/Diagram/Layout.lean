import Swimlane.Diagram.Column
import Swimlane.Diagram.Lane
import Swimlane.Failure
import Swimlane.Settings

/-!
# Layout

Every state, and the start event in front of the start state, gets a place: a lane, a column,
and a rank among the nodes of that lane in that column.  Lanes are bands one above the other,
as high as their fullest column needs.
-/

namespace Swimlane.Diagram

/-- A rectangle. -/
structure Bounds where
  x : Int
  y : Int
  width : Int
  height : Int
  deriving DecidableEq, Repr

namespace Bounds

/-- The right edge. -/
def right (b : Bounds) : Int := b.x + b.width

/-- The lower edge. -/
def bottom (b : Bounds) : Int := b.y + b.height

/-- The middle between left and right, rounded down. -/
def centerX (b : Bounds) : Int := b.x + Int.fdiv b.width 2

/-- The middle between top and bottom, rounded down. -/
def centerY (b : Bounds) : Int := b.y + Int.fdiv b.height 2

end Bounds

/-- The name of the start event among the nodes. -/
def startNode : Json := .str "__start__"

/-- The label of the start event. -/
def startLabel : String := "start"

/-- Where a node goes, before its rank is known. -/
structure Placement where
  id : Json
  label : Json
  lane : String
  column : Nat

/-- A node of the diagram. -/
structure Node where
  id : Json
  label : Json
  lane : String
  column : Nat
  rank : Nat
  bounds : Bounds

/-- A lane with its rows and its place in the pool. -/
structure Band where
  lane : Lane
  rows : Nat
  bounds : Bounds

/-- A diagram: bands from top to bottom, nodes by their names, and the pool around them. -/
structure Layout where
  bands : List Band
  nodes : List (Json × Node)
  pool : Bounds

/-- Width and height of the shape for a label. -/
def shapeSize (geometry : Geometry) (label : Json) : Except LayoutFault (Int × Int) :=
  match Kind.ofLabel? label with
  | some .userTask => .ok (geometry.taskWidth, geometry.taskHeight)
  | some .task => .ok (geometry.taskWidth, geometry.taskHeight)
  | some .send => .ok (geometry.taskWidth, geometry.taskHeight)
  | some .choice => .ok (geometry.gatewaySize, geometry.gatewaySize)
  | some .stop => .ok (geometry.eventSize, geometry.eventSize)
  | none =>
    if label.isText startLabel then .ok (geometry.eventSize, geometry.eventSize)
    else .error (.noShape label)

/-- The placement of a state in its lane, behind the column of the start event. -/
def placement (lanes : List Lane) (assignment : List (Json × String))
    (columns : List (Json × Nat)) (s : State) : Except LayoutFault Placement :=
  let lane := Assoc.get? s.id assignment
  match lanes.find? fun l => lane = some l.id with
  | none => .error (.unknownLane s.id lane)
  | some l =>
    .ok { id := s.id
          label := s.label
          lane := l.id
          column := (Assoc.get? s.id columns).getD 0 + 1 }

/-- The placements with their ranks: how many earlier ones are in the same lane and column. -/
def ranked (earlier : List Placement) : List Placement → List (Placement × Nat)
  | [] => []
  | p :: rest =>
    let rank := earlier.countP fun q => q.lane == p.lane && q.column == p.column
    (p, rank) :: ranked (earlier ++ [p]) rest

/-- The rows of a lane: as many as the fullest column needs, one at least. -/
def rowsOf (lane : String) (places : List (Placement × Nat)) : Nat :=
  max 1 (above ((places.filter (·.1.lane == lane)).map (·.2)))

/-- The bands of lanes from the given height on, and the height below them. -/
def stack (geometry : Geometry) (width : Int) (places : List (Placement × Nat)) (y : Int) :
    List Lane → List Band × Int
  | [] => ([], y)
  | lane :: rest =>
    let rows := rowsOf lane.id places
    let height := rows * geometry.rowHeight + 2 * geometry.lanePadding
    let bounds := ⟨geometry.poolX + geometry.laneHeaderWidth, y, width, height⟩
    let r := stack geometry width places (y + height) rest
    (⟨lane, rows, bounds⟩ :: r.1, r.2)

/-- The bounds of a shape in its cell of a band. -/
def cellBounds (geometry : Geometry) (band : Bounds) (column rank : Nat) (size : Int × Int) :
    Bounds :=
  let (width, height) := size
  { x := band.x + column * geometry.columnWidth + Int.fdiv (geometry.columnWidth - width) 2
    y := band.y + geometry.lanePadding + rank * geometry.rowHeight +
      Int.fdiv (geometry.rowHeight - height) 2
    width
    height }

/-- The bounds of the band of a lane. -/
def bandBounds (bands : List Band) (lane : String) : Bounds :=
  ((bands.find? (·.lane.id == lane)).map (·.bounds)).getD ⟨0, 0, 0, 0⟩

/-- The node of a placement. -/
def nodeOf (geometry : Geometry) (bands : List Band) (place : Placement × Nat) :
    Except LayoutFault Node := do
  let (p, rank) := place
  let size ← shapeSize geometry p.label
  return {
    id := p.id, label := p.label, lane := p.lane, column := p.column, rank
    bounds := cellBounds geometry (bandBounds bands p.lane) p.column rank size }

/-- The lanes of a flow, and the places of its start event and its states with their ranks. -/
def placesOf (g : Graph) (defaultLane : String) :
    Except Failure (List Lane × List (Placement × Nat)) := do
  let (lanes, assignment) ← (assignLanes g (.str defaultLane)).mapError .misfit
  let columns ← (assignColumns g).mapError .misfit
  match Assoc.get? g.start assignment with
  | none => throw (.layout (.startWithoutLane g.start))
  | some startLane =>
    -- The start event has the first column for itself, in the lane of the start state.
    let start : Placement := ⟨startNode, .str startLabel, startLane, 0⟩
    let placed ← (g.nodes.mapM (placement lanes assignment columns)).mapError .layout
    return (lanes, ranked [] (start :: placed))

/-- The diagram with the given lanes and places. -/
def draw (geometry : Geometry) (lanes : List Lane) (places : List (Placement × Nat)) :
    Except LayoutFault Layout := do
  let width := above (places.map (·.1.column)) * geometry.columnWidth
  let (bands, bottom) := stack geometry width places geometry.poolY lanes
  let nodes ← places.mapM (nodeOf geometry bands)
  return {
    bands
    nodes := Assoc.ofPairs (nodes.map fun n => (n.id, n))
    pool := ⟨geometry.poolX, geometry.poolY, geometry.laneHeaderWidth + width,
      bottom - geometry.poolY⟩ }

/-- The layout of a flow. -/
def layout (g : Graph) (geometry : Geometry) (defaultLane : String) : Except Failure Layout := do
  let (lanes, places) ← placesOf g defaultLane
  (draw geometry lanes places).mapError .layout

end Swimlane.Diagram
