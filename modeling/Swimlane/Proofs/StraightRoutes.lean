import Mathlib
import Swimlane.Proofs.Canonical
import Swimlane.Proofs.Routes

/-!
# Which routes are straight

A way within a column goes from the middle of one node to the middle of the other.  Both are
centred in the column, but widths are halved twice, and rounded down each time: the room beside a
node, and the node itself.  So the middles of an even and of an odd width differ by one pixel in a
column of even width, and the way between them is slanted.

## Key results

- `centerX_cellBounds`: where the middle of a node is
- `orthogonal_route_iff`: which ways of a layout are slanted
- `routes_orthogonal_iff`: with which measures no flow of any graph is slanted
- `route_of_crookedDocument`: a slanted flow
-/

namespace Swimlane

/-- Measures with shapes of positive sizes that fit into cells. -/
structure Geometry.Proper (geometry : Geometry) : Prop where
  taskWidth : 0 < geometry.taskWidth ∧ geometry.taskWidth ≤ geometry.columnWidth
  taskHeight : 0 < geometry.taskHeight ∧ geometry.taskHeight ≤ geometry.rowHeight
  gatewaySize : 0 < geometry.gatewaySize ∧ geometry.gatewaySize ≤ geometry.columnWidth ∧
    geometry.gatewaySize ≤ geometry.rowHeight
  eventSize : 0 < geometry.eventSize ∧ geometry.eventSize ≤ geometry.columnWidth ∧
    geometry.eventSize ≤ geometry.rowHeight

/-- Apart from the room around the rows of lanes, such measures leave room for every shape. -/
theorem Geometry.Proper.fits {geometry : Geometry} (h : geometry.Proper) :
    ({ geometry with lanePadding := 0, laneHeaderWidth := 0 } : Geometry).Fits where
  padding := Int.le_refl 0
  header := Int.le_refl 0
  taskWidth := ⟨Int.le_of_lt h.taskWidth.1, h.taskWidth.2⟩
  gatewayWidth := ⟨Int.le_of_lt h.gatewaySize.1, h.gatewaySize.2.1⟩
  eventWidth := ⟨Int.le_of_lt h.eventSize.1, h.eventSize.2.1⟩
  taskHeight := ⟨Int.le_of_lt h.taskHeight.1, h.taskHeight.2⟩
  gatewayHeight := h.gatewaySize.2.2
  eventHeight := h.eventSize.2.2

/-- Measures with which the shapes of all kinds have the same middle in a column: the width of
    columns is odd, or the widths of the shapes are all even or all odd. -/
def Geometry.Aligned (geometry : Geometry) : Prop :=
  geometry.columnWidth % 2 = 1 ∨
    (geometry.taskWidth % 2 = geometry.gatewaySize % 2 ∧
      geometry.taskWidth % 2 = geometry.eventSize % 2)

namespace Diagram

/-! ## Middles -/

/-- Half of what is beside a size and half of the size make up half of the room, but for what is
    lost by rounding twice. -/
theorem fdiv_beside (room size : Int) : Int.fdiv (room - size) 2 + Int.fdiv size 2 =
    room / 2 - (if room % 2 = 0 ∧ size % 2 = 1 then 1 else 0) := by
  rw [Int.fdiv_eq_ediv_of_nonneg _ (by omega), Int.fdiv_eq_ediv_of_nonneg _ (by omega)]
  split <;> omega

/-- The middle of a shape in a cell. -/
theorem centerX_cellBounds (geometry : Geometry) (band : Bounds) (column rank : Nat)
    (size : Int × Int) : (cellBounds geometry band column rank size).centerX =
      band.x + column * geometry.columnWidth + (geometry.columnWidth / 2 -
        (if geometry.columnWidth % 2 = 0 ∧ size.1 % 2 = 1 then 1 else 0)) := by
  rw [← fdiv_beside]
  simp only [Bounds.centerX, cellBounds]
  omega

section Layouts

variable {g : Graph} {geometry : Geometry} {default : String} {l : Layout} {a b : Json}
  {s t : Node}

/-- Two nodes of a column have the same middle if the column has an odd width, or if their widths
    are both even or both odd. -/
theorem centerX_eq_iff (h : layout g geometry default = .ok l)
    (hs : Assoc.get? a l.nodes = some s) (ht : Assoc.get? b l.nodes = some t)
    (hcolumn : s.column = t.column) : s.bounds.centerX = t.bounds.centerX ↔
      geometry.columnWidth % 2 = 1 ∨ s.bounds.width % 2 = t.bounds.width % 2 := by
  obtain ⟨size, _, hbounds, hx⟩ := node_of_layout h hs
  obtain ⟨size', _, hbounds', hx'⟩ := node_of_layout h ht
  have hwidth : s.bounds.width = size.1 := by rw [hbounds]; rfl
  have hwidth' : t.bounds.width = size'.1 := by rw [hbounds']; rfl
  rw [hwidth, hwidth', hbounds, hbounds', centerX_cellBounds, centerX_cellBounds, hx, hx', hcolumn]
  split <;> split <;> omega

/-- A way of a layout is slanted if it goes within a column of even width, from a node of even
    width to one of odd width or back, and there is room between the two. -/
theorem orthogonal_route_iff (h : layout g geometry default = .ok l)
    (hs : Assoc.get? a l.nodes = some s) (ht : Assoc.get? b l.nodes = some t) :
    Orthogonal (route s t) ↔ (s.column = t.column → geometry.columnWidth % 2 = 1 ∨
      s.bounds.width % 2 = t.bounds.width % 2 ∨ s.bounds.Abuts t.bounds) := by
  rw [route, orthogonal_routeBetween_iff, Int.natCast_inj]
  refine forall_congr' fun hcolumn => ?_
  rw [centerX_eq_iff h hs ht hcolumn, or_assoc]

/-- A shape is as wide as a task, a gateway or an event. -/
theorem shapeSize_width {label : Json} {size : Int × Int}
    (h : shapeSize geometry label = .ok size) :
    size.1 ∈ [geometry.taskWidth, geometry.gatewaySize, geometry.eventSize] := by
  rw [shapeSize] at h
  cases hk : Kind.ofLabel? label with
  | none =>
    simp only [hk] at h
    split at h
    · cases h; simp
    · cases h
  | some kind =>
    simp only [hk] at h
    cases kind <;> cases h <;> simp

/-- With aligned measures, the widths of all nodes are even or all odd, unless columns have an odd
    width. -/
theorem width_mod_of_aligned (hg : geometry.Aligned) (h : layout g geometry default = .ok l)
    (hs : Assoc.get? a l.nodes = some s) (ht : Assoc.get? b l.nodes = some t) :
    geometry.columnWidth % 2 = 1 ∨ s.bounds.width % 2 = t.bounds.width % 2 := by
  obtain ⟨size, hsize, hbounds, _⟩ := node_of_layout h hs
  obtain ⟨size', hsize', hbounds', _⟩ := node_of_layout h ht
  have hwidth : s.bounds.width = size.1 := by rw [hbounds]; rfl
  have hwidth' : t.bounds.width = size'.1 := by rw [hbounds']; rfl
  refine hg.imp_right fun hg => ?_
  rw [hwidth, hwidth']
  have hmem := shapeSize_width hsize
  have hmem' := shapeSize_width hsize'
  simp only [List.mem_cons, List.not_mem_nil, or_false] at hmem hmem'
  omega

end Layouts

/-! ## Where nodes are -/

/-- The kind of a node that is a state, and its cell. -/
def Node.spot (n : Node) : Option Kind × String × Nat × Nat :=
  (Kind.ofLabel? n.label, n.lane, n.column, n.rank)

/-- The kind of a placement, and its cell. -/
def spotOf (place : Placement × Nat) : Option Kind × String × Nat × Nat :=
  (Kind.ofLabel? place.1.label, place.1.lane, place.1.column, place.2)

section Spots

variable {g : Graph} {geometry : Geometry} {default : String} {l : Layout}

/-- The cells of nodes do not depend on the measures. -/
theorem spot_of_layout (h : layout g geometry default = .ok l) {lanes : List Lane}
    {places : List (Placement × Nat)} (hp : placesOf g default = .ok (lanes, places))
    (name : Json) : (Assoc.get? name l.nodes).map Node.spot =
      Assoc.get? name (Assoc.ofPairs (places.map fun p => (p.1.id, spotOf p))) := by
  obtain ⟨_, _, nodes, _, hplaces, _, _, hnodes, hstored, _⟩ := drawing_of_layout h
  cases hp.symm.trans hplaces
  have hspots : nodes.map (fun n => (n.id, n.spot)) = places.map fun p => (p.1.id, spotOf p) := by
    refine Except.map_eq_of_mapM (fun p _ n hn => ?_) hnodes
    obtain ⟨hid, hlabel, hlane, hcolumn, hrank⟩ := nodeOf_eq_ok hn
    rw [Node.spot, spotOf, hid, hlabel, hlane, hcolumn, hrank]
  rw [hstored, ← Assoc.get?_map, ← Assoc.ofPairs_map, List.map_map, ← hspots]
  rfl

/-- With proper measures, a shape has at most the height of a row. -/
theorem height_of_shapeSize (hg : geometry.Proper) {label : Json} {size : Int × Int}
    (h : shapeSize geometry label = .ok size) : 0 ≤ size.2 ∧ size.2 ≤ geometry.rowHeight :=
  ⟨(shapeSize_nonneg hg.fits h).2, (shapeSize_fits hg.fits h).2⟩

/-- A node that is two rows or more below another one in its lane does not touch it. -/
theorem not_abuts_of_rank (hg : geometry.Proper) (h : layout g geometry default = .ok l)
    {a b : Json} {s t : Node} (hs : Assoc.get? a l.nodes = some s)
    (ht : Assoc.get? b l.nodes = some t) (hlane : s.lane = t.lane) (hrank : s.rank + 2 ≤ t.rank) :
    ¬ s.bounds.Abuts t.bounds := by
  obtain ⟨size, hsize, hbounds, _⟩ := node_of_layout h hs
  obtain ⟨size', hsize', hbounds', _⟩ := node_of_layout h ht
  obtain ⟨hpositive, hheight⟩ := height_of_shapeSize hg hsize
  obtain ⟨_, hbottom⟩ := centred hheight
  obtain ⟨htop, _⟩ := centred (height_of_shapeSize hg hsize').2
  have hrow : 0 < geometry.rowHeight := Int.lt_of_lt_of_le hg.taskHeight.1 hg.taskHeight.2
  have hrows : ((s.rank : Int) + 2) * geometry.rowHeight ≤ t.rank * geometry.rowHeight :=
    Int.mul_le_mul_of_nonneg_right (by omega) (by omega)
  rw [Int.add_mul] at hrows
  -- The first node ends in its row, and the second one begins behind the next row.
  have hbelow : s.bounds.bottom < t.bounds.y ∧ s.bounds.y ≤ s.bounds.bottom := by
    rw [hbounds, hbounds', hlane]
    simp only [Bounds.bottom, cellBounds]
    constructor <;> omega
  rw [Bounds.Abuts, if_pos (by omega)]
  omega

end Spots

/-! ## All graphs -/

/-- A flow in which a choice leads to five states of one column, some of which lead to others. -/
def fannedFlow : Graph :=
  { name := "F"
    start := .str "pick"
    states := [
      ("pick", State.make "pick" (.choice (.list [⟨.str "1", .str "one"⟩, ⟨.str "2", .str "two"⟩,
        ⟨.str "3", .str "ask"⟩, ⟨.str "4", .str "four"⟩]) (.str "end")) .null),
      ("one", State.make "one" (.task (.str "x")) (.str "ask")),
      ("two", State.make "two" (.task (.str "x")) (.str "end")),
      ("ask", State.make "ask" (.choice (.list []) (.str "end")) .null),
      ("four", State.make "four" (.task (.str "x")) (.str "end")),
      ("end", State.make "end" (.stop (.str "")) .null)]
    warnings := [] }

theorem validate_fannedFlow : fannedFlow.validate = .ok [] := by cbv

theorem flowEnds_fannedFlow : flowEnds fannedFlow =
    [("__start__", "pick"), ("pick", "one"), ("pick", "two"), ("pick", "ask"), ("pick", "four"),
      ("pick", "end"), ("one", "ask"), ("two", "end"), ("ask", "end"), ("four", "end")].map
        fun e => (.str e.1, .str e.2) := by
  rfl

theorem keyed_fannedFlow : fannedFlow.Keyed := by
  constructor
  · simp [fannedFlow, State.make]
  · decide

theorem attributed_fannedFlow : ∀ s ∈ fannedFlow.nodes, s.Attributed := by
  simp [fannedFlow, Graph.nodes, State.make, State.Attributed]

theorem spots_fannedFlow : (placesOf fannedFlow "System").toOption.map (fun r =>
    ["one", "two", "ask", "end"].map fun name =>
      Assoc.get? (.str name) (Assoc.ofPairs (r.2.map fun p => (p.1.id, spotOf p)))) =
    some [some (some .task, "Lane_system", 2, 0), some (some .task, "Lane_system", 2, 1),
      some (some .choice, "Lane_system", 2, 2), some (some .stop, "Lane_system", 2, 4)] := by
  decide +kernel

/-- Where the states of this flow are in a layout, whatever the measures are. -/
theorem exists_nodes_fannedFlow {geometry : Geometry} {l : Layout}
    (h : layout fannedFlow geometry "System" = .ok l) : ∃ one two ask last,
      Assoc.get? (.str "one") l.nodes = some one ∧ Assoc.get? (.str "two") l.nodes = some two ∧
      Assoc.get? (.str "ask") l.nodes = some ask ∧ Assoc.get? (.str "end") l.nodes = some last ∧
      one.spot = (some .task, "Lane_system", 2, 0) ∧ two.spot = (some .task, "Lane_system", 2, 1) ∧
      ask.spot = (some .choice, "Lane_system", 2, 2) ∧
      last.spot = (some .stop, "Lane_system", 2, 4) := by
  obtain ⟨⟨lanes, places⟩, hplaces, hspots⟩ := Option.map_eq_some_iff.mp spots_fannedFlow
  have hfound := spot_of_layout h (Except.toOption_eq_some.mp hplaces)
  simp only [List.map_cons, List.map_nil, ← hfound, List.cons.injEq, Option.map_eq_some_iff]
    at hspots
  obtain ⟨⟨one, hone, hone'⟩, ⟨two, htwo, htwo'⟩, ⟨ask, hask, hask'⟩, ⟨last, hlast, hlast'⟩, _⟩ :=
    hspots
  exact ⟨one, two, ask, last, hone, htwo, hask, hlast, hone', htwo', hask', hlast'⟩

/-- A node of a layout that is a state is as wide as the shape of its kind. -/
theorem width_of_spot {g : Graph} {geometry : Geometry} {default : String} {l : Layout}
    (h : layout g geometry default = .ok l) {name : Json} {n : Node}
    (hn : Assoc.get? name l.nodes = some n) {kind : Kind} {rest : String × Nat × Nat}
    (hspot : n.spot = (some kind, rest)) :
    n.bounds.width = match kind with
      | .choice => geometry.gatewaySize
      | .stop => geometry.eventSize
      | _ => geometry.taskWidth := by
  obtain ⟨size, hsize, hbounds, _⟩ := node_of_layout h hn
  have hkind : Kind.ofLabel? n.label = some kind := (Prod.mk.inj hspot).1
  have hwidth : n.bounds.width = size.1 := by rw [hbounds]; rfl
  rw [shapeSize, hkind] at hsize
  rw [hwidth]
  cases kind <;> cases hsize <;> rfl

/-- A straight way between two nodes of a column and a lane, with a row between them or more, shows
    that the widths of the two are both even or both odd, or that columns have an odd width. -/
theorem width_mod_of_orthogonal {g : Graph} {geometry : Geometry} (hg : geometry.Proper)
    {default : String} {l : Layout} (h : layout g geometry default = .ok l) {a b : Json}
    {s t : Node} (hs : Assoc.get? a l.nodes = some s) (ht : Assoc.get? b l.nodes = some t)
    {kind kind' : Kind} {lane : String} {column rank rank' : Nat}
    (hspot : s.spot = (some kind, lane, column, rank))
    (hspot' : t.spot = (some kind', lane, column, rank')) (hrank : rank + 2 ≤ rank')
    (hroute : Orthogonal (route s t)) :
    geometry.columnWidth % 2 = 1 ∨ s.bounds.width % 2 = t.bounds.width % 2 := by
  simp only [Node.spot, Prod.mk.injEq] at hspot hspot'
  obtain ⟨_, hlane, hcolumn, hrow⟩ := hspot
  obtain ⟨_, hlane', hcolumn', hrow'⟩ := hspot'
  have habuts := not_abuts_of_rank hg h hs ht (hlane.trans hlane'.symm) (by omega)
  have hwidth := (orthogonal_route_iff h hs ht).mp hroute (hcolumn.trans hcolumn'.symm)
  exact hwidth.imp_right fun hw => hw.resolve_right habuts

/-- In a layout, a flow is slanted only if it stays in a column of even width, between nodes of
    which one has an even and one an odd width and that do not touch.  So no flow of an accepted
    graph is ever slanted exactly if the measures are aligned. -/
theorem routes_orthogonal_iff {geometry : Geometry} (hg : geometry.Proper) :
    (∀ (g : Graph) (default : String) (l : Layout), layout g geometry default = .ok l →
      ∀ e ∈ flowEnds g, ∀ s t, Assoc.get? e.1 l.nodes = some s →
        Assoc.get? e.2 l.nodes = some t →
        (Orthogonal (route s t) ↔ (s.column = t.column → geometry.columnWidth % 2 = 1 ∨
          s.bounds.width % 2 = t.bounds.width % 2 ∨ s.bounds.Abuts t.bounds))) ∧
    ((∀ (g : Graph) (warnings : List String) (default : String) (l : Layout),
      g.validate = .ok warnings → layout g geometry default = .ok l →
      ∀ e ∈ flowEnds g, ∀ s t, Assoc.get? e.1 l.nodes = some s →
        Assoc.get? e.2 l.nodes = some t → Orthogonal (route s t)) ↔ geometry.Aligned) := by
  refine ⟨fun g default l hl e _ s t hs ht => orthogonal_route_iff hl hs ht, fun hall => ?_,
    fun haligned g warnings default l _ hl e _ s t hs ht => ?_⟩
  · obtain ⟨_, _, l, _, _, _, hl⟩ := exists_layout keyed_fannedFlow validate_fannedFlow
      attributed_fannedFlow geometry "System"
    obtain ⟨one, two, ask, last, hone, htwo, hask, hlast, hspot, hspot₂, hspot₃, hspot₄⟩ :=
      exists_nodes_fannedFlow hl
    -- Two flows of this graph stay in a column, between nodes that do not touch.
    have hgateway := hall _ _ _ l validate_fannedFlow hl (.str "one", .str "ask")
      (by simp [flowEnds_fannedFlow]) one ask hone hask
    have hevent := hall _ _ _ l validate_fannedFlow hl (.str "two", .str "end")
      (by simp [flowEnds_fannedFlow]) two last htwo hlast
    have hwidth := width_mod_of_orthogonal hg hl hone hask hspot hspot₃ (by decide) hgateway
    have hwidth' := width_mod_of_orthogonal hg hl htwo hlast hspot₂ hspot₄ (by decide) hevent
    rw [width_of_spot hl hone hspot, width_of_spot hl hask hspot₃] at hwidth
    rw [width_of_spot hl htwo hspot₂, width_of_spot hl hlast hspot₄] at hwidth'
    exact or_and_left.mpr ⟨hwidth, hwidth'⟩
  · refine (orthogonal_route_iff hl hs ht).mpr fun _ => ?_
    exact (width_mod_of_aligned haligned hl hs ht).imp_right Or.inl

/-- With the measures that diagrams have if nothing else is said, the way between two nodes of a
    column of this flow is straight. -/
theorem routes_orthogonal_fannedFlow : ({} : Geometry).Proper ∧ ({} : Geometry).Aligned ∧
    ∃ l s t, layout fannedFlow {} "System" = .ok l ∧ Assoc.get? (.str "two") l.nodes = some s ∧
      Assoc.get? (.str "end") l.nodes = some t ∧ s.column = t.column ∧
      ¬ s.bounds.Abuts t.bounds ∧ Orthogonal (route s t) := by
  have hproper : ({} : Geometry).Proper := by constructor <;> decide
  have haligned : ({} : Geometry).Aligned := by unfold Geometry.Aligned; decide
  obtain ⟨_, _, l, _, _, _, hl⟩ := exists_layout keyed_fannedFlow validate_fannedFlow
    attributed_fannedFlow {} "System"
  obtain ⟨_, two, _, last, _, htwo, _, hlast, _, hspot, _, hspot'⟩ := exists_nodes_fannedFlow hl
  simp only [Node.spot, Prod.mk.injEq] at hspot hspot'
  obtain ⟨_, hlane, hcolumn, hrank⟩ := hspot
  obtain ⟨_, hlane', hcolumn', hrank'⟩ := hspot'
  refine ⟨hproper, haligned, l, two, last, hl, htwo, hlast, hcolumn.trans hcolumn'.symm, ?_, ?_⟩
  · exact not_abuts_of_rank hproper hl htwo hlast (hlane.trans hlane'.symm) (by omega)
  · exact (routes_orthogonal_iff hproper).2.mpr haligned fannedFlow [] "System" l
      validate_fannedFlow hl (.str "two", .str "end") (by simp [flowEnds_fannedFlow]) two last
      htwo hlast

/-- A document with a choice that leads to a task and to the stop after it. -/
def crookedDocument : Json :=
  .obj [("flow", .str "F"), ("start", .str "a"), ("states", .arr [
    .obj [("id", .str "a"), ("kind", .str "choice"), ("branches", .arr [
      .obj [("condition", .str "x"), ("next", .str "b")]]), ("otherwise", .str "c")],
    .obj [("id", .str "b"), ("kind", .str "task"), ("action", .str "t"), ("next", .str "c")],
    .obj [("id", .str "c"), ("kind", .str "stop")]])]

/-- With events of an odd size, this document has a flow that goes one pixel to the left on its way
    down. -/
theorem route_of_crookedDocument : ({ eventSize := 35 } : Geometry).Proper ∧
    ∃ g l ways, Graph.ofJson crookedDocument = .ok g ∧ g.validate = .ok g.warnings ∧
      layout g { eventSize := 35 } "System" = .ok l ∧ l.routes g = .ok ways ∧
      ∃ way ∈ ways, way.points = [⟨640, 200⟩, ⟨639, 262⟩] ∧ ¬ Orthogonal way.points := by
  have hproper : ({ eventSize := 35 } : Geometry).Proper := by constructor <;> decide
  have hrun : ((Graph.ofJson crookedDocument).toOption.bind fun g =>
      (layout g { eventSize := 35 } "System").toOption.bind fun l =>
        (l.routes g).toOption.map fun ways => ways.map (·.points)) =
      some [[⟨297, 159⟩, ⟨366, 159⟩, ⟨366, 160⟩, ⟨435, 160⟩], [⟨485, 160⟩, ⟨590, 160⟩],
        [⟨485, 160⟩, ⟨553, 160⟩, ⟨553, 279⟩, ⟨622, 279⟩], [⟨640, 200⟩, ⟨639, 262⟩]] := by
    decide +kernel
  obtain ⟨g, hg, hrun⟩ := Option.bind_eq_some_iff.mp hrun
  obtain ⟨l, hl, hrun⟩ := Option.bind_eq_some_iff.mp hrun
  obtain ⟨ways, hways, hrun⟩ := Option.map_eq_some_iff.mp hrun
  have hgraph := Except.toOption_eq_some.mp hg
  refine ⟨hproper, g, l, ways, hgraph, (Graph.loaded_of_ofJson hgraph).accepted,
    Except.toOption_eq_some.mp hl, Except.toOption_eq_some.mp hways, ?_⟩
  have hslanted : [⟨640, 200⟩, ⟨639, 262⟩] ∈ ways.map (·.points) := by
    rw [hrun]
    decide
  obtain ⟨way, hway, hpoints⟩ := List.mem_map.mp hslanted
  refine ⟨way, hway, hpoints, ?_⟩
  rw [hpoints]
  simp [Orthogonal]

end Diagram

end Swimlane
