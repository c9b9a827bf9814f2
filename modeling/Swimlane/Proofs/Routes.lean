import Swimlane.Diagram.Route
import Swimlane.Proofs.LayoutParts

/-!
# Routes between rectangles

The way of an edge leaves a node on its border and reaches the other one on its border.  Nothing
is asked of the graph here: a layout centres every node in its cell, and whatever two nodes an edge
connects, its way depends on their columns and their rectangles only.

## Key results

- `connects_routeBetween`: a way connects two rectangles, and does not leave what is around both
- `orthogonal_routeBetween_iff`: which ways have a slanted segment
- `node_of_layout`: the nodes of a layout
- `framed_of_layout`: the nodes of a layout lie within its pool
-/

namespace Swimlane.Diagram

/-! ## Points and rectangles -/

namespace Bounds

/-- A rectangle has no negative size. -/
def IsSized (b : Bounds) : Prop := 0 ≤ b.width ∧ 0 ≤ b.height

/-- A point is inside of a rectangle or on its border. -/
def Holds (b : Bounds) (p : Point) : Prop :=
  b.x ≤ p.x ∧ p.x ≤ b.right ∧ b.y ≤ p.y ∧ p.y ≤ b.bottom

/-- A point is on the border of a rectangle. -/
def OnBorder (b : Bounds) (p : Point) : Prop :=
  b.Holds p ∧ (p.x = b.x ∨ p.x = b.right ∨ p.y = b.y ∨ p.y = b.bottom)

/-- The lower edge of the upper one of two rectangles is as high as the upper edge of the other
    one. -/
def Abuts (b c : Bounds) : Prop := if b.y ≤ c.y then b.bottom = c.y else c.bottom = b.y

/-- What a rectangle holds is held by every rectangle around it. -/
theorem Contains.holds {outer inner : Bounds} (h : outer.Contains inner) {p : Point}
    (hp : inner.Holds p) : outer.Holds p :=
  ⟨h.left.trans hp.1, hp.2.1.trans h.right, h.top.trans hp.2.2.1, hp.2.2.2.trans h.bottom⟩

/-- A rectangle within one that is within another is within that one. -/
theorem Contains.trans {a b c : Bounds} (h : a.Contains b) (h' : b.Contains c) : a.Contains c :=
  ⟨h.left.trans h'.left, h'.right.trans h.right, h.top.trans h'.top, h'.bottom.trans h.bottom⟩

/-- Half of a size, rounded down, is not larger than the size. -/
theorem half_le {size : Int} (h : 0 ≤ size) : 0 ≤ Int.fdiv size 2 ∧ Int.fdiv size 2 ≤ size := by
  rw [Int.fdiv_eq_ediv_of_nonneg _ (by omega)]
  omega

section Sides

variable {b : Bounds} (h : b.IsSized)

include h

/-- The left side is not behind the right one, and the upper side is not below the lower one. -/
theorem IsSized.sides : b.x ≤ b.right ∧ b.y ≤ b.bottom := by
  obtain ⟨hw, hh⟩ := h
  simp only [right, bottom]
  omega

/-- The middle is between left and right. -/
theorem IsSized.centerX : b.x ≤ b.centerX ∧ b.centerX ≤ b.right := by
  have hhalf := half_le h.1
  simp only [Bounds.centerX, right]
  omega

/-- The middle is between top and bottom. -/
theorem IsSized.centerY : b.y ≤ b.centerY ∧ b.centerY ≤ b.bottom := by
  have hhalf := half_le h.2
  simp only [Bounds.centerY, bottom]
  omega

/-- The middle of the left side is on the border. -/
theorem onBorder_left : b.OnBorder ⟨b.x, b.centerY⟩ :=
  ⟨⟨Int.le_refl _, h.sides.1, h.centerY⟩, Or.inl rfl⟩

/-- The middle of the right side is on the border. -/
theorem onBorder_right : b.OnBorder ⟨b.right, b.centerY⟩ :=
  ⟨⟨h.sides.1, Int.le_refl _, h.centerY⟩, Or.inr (Or.inl rfl)⟩

/-- The middle of the upper side is on the border. -/
theorem onBorder_top : b.OnBorder ⟨b.centerX, b.y⟩ :=
  ⟨⟨h.centerX.1, h.centerX.2, Int.le_refl _, h.sides.2⟩, Or.inr (Or.inr (Or.inl rfl))⟩

/-- The middle of the lower side is on the border. -/
theorem onBorder_bottom : b.OnBorder ⟨b.centerX, b.bottom⟩ :=
  ⟨⟨h.centerX.1, h.centerX.2, h.sides.2, Int.le_refl _⟩, Or.inr (Or.inr (Or.inr rfl))⟩

end Sides

/-- A point halfway between two points at their sides, as high as one of them, is held by what
    holds both. -/
theorem holds_between {pool : Bounds} {x x' y y' : Int} (h : pool.Holds ⟨x, y⟩)
    (h' : pool.Holds ⟨x', y'⟩) : pool.Holds ⟨Int.fdiv (x + x') 2, y⟩ := by
  simp only [Holds] at h h' ⊢
  rw [Int.fdiv_eq_ediv_of_nonneg _ (by omega)]
  omega

end Bounds

/-! ## Ways -/

/-- The ends of the flows of a graph: of the one from the start event, and of those along the
    edges. -/
def flowEnds (g : Graph) : List (Json × Json) := (startNode, g.start) :: g.edges

/-- A way from one rectangle to another inside of a pool: it has two points at least, it begins on
    the border of the first rectangle and ends on the border of the second one. -/
structure Connects (pool source target : Bounds) (points : List Point) : Prop where
  length : 2 ≤ points.length
  first : ∃ p, points.head? = some p ∧ source.OnBorder p
  last : ∃ p, points.getLast? = some p ∧ target.OnBorder p
  inside : ∀ p ∈ points, pool.Holds p

/-- Every segment of a way goes straight along or straight down. -/
def Orthogonal (points : List Point) : Prop :=
  points.IsChain fun p q => p.x = q.x ∨ p.y = q.y

/-- A way connects two rectangles, whatever columns they are in, and does not leave what is around
    both of them. -/
theorem connects_routeBetween {pool s t : Bounds} (hs : pool.Contains s) (ht : pool.Contains t)
    (hs' : s.IsSized) (ht' : t.IsSized) (c d : Int) :
    Connects pool s t (routeBetween c d s t) := by
  -- A way with two points, both of them on borders.
  have htwo : ∀ p q, s.OnBorder p → t.OnBorder q → Connects pool s t [p, q] := by
    intro p q hp hq
    refine ⟨Nat.le_refl 2, ⟨p, rfl, hp⟩, ⟨q, rfl, hq⟩, ?_⟩
    simp only [List.forall_mem_cons]
    exact ⟨hs.holds hp.1, ht.holds hq.1, List.forall_mem_nil _⟩
  rw [routeBetween]
  split
  · split
    · exact htwo _ _ (Bounds.onBorder_bottom hs') (Bounds.onBorder_top ht')
    · exact htwo _ _ (Bounds.onBorder_top hs') (Bounds.onBorder_bottom ht')
  · have hfirst := Bounds.onBorder_right hs'
    have hlast := Bounds.onBorder_left ht'
    split
    · exact htwo _ _ hfirst hlast
    · -- The step in the middle is between both ends.
      have hstep := Bounds.holds_between (hs.holds hfirst.1) (ht.holds hlast.1)
      have hstep' := Bounds.holds_between (ht.holds hlast.1) (hs.holds hfirst.1)
      rw [Int.add_comm] at hstep'
      refine ⟨by simp, ⟨_, rfl, hfirst⟩, ⟨_, rfl, hlast⟩, ?_⟩
      simp only [List.forall_mem_cons]
      exact ⟨hs.holds hfirst.1, hstep, hstep', ht.holds hlast.1, List.forall_mem_nil _⟩

/-- A way is straight along and down unless it is within a column, between rectangles whose middles
    differ and that have room between them. -/
theorem orthogonal_routeBetween_iff (c d : Int) (s t : Bounds) :
    Orthogonal (routeBetween c d s t) ↔ (c = d → s.centerX = t.centerX ∨ s.Abuts t) := by
  rw [Orthogonal, routeBetween, Bounds.Abuts]
  by_cases hcolumn : c = d
  · by_cases hy : s.y ≤ t.y
    · simp [hcolumn, hy]
    · simp [hcolumn, hy, eq_comm]
  · by_cases hcenter : s.centerY = t.centerY
    · simp [hcolumn, hcenter]
    · simp [hcolumn, hcenter]

/-! ## The nodes of a layout -/

/-- A placement has the label of its state. -/
theorem label_of_placement {lanes : List Lane} {assignment : List (Json × String)}
    {columns : List (Json × Nat)} {s : State} {p : Placement}
    (h : placement lanes assignment columns s = .ok p) : p.label = s.label := by
  simp only [placement] at h
  split at h
  · cases h
  · cases h
    rfl

/-- The places of a graph, of which nothing is asked but that it has places. -/
theorem placed_of_placesOf {g : Graph} {default : String} {lanes : List Lane}
    {places : List (Placement × Nat)} (h : placesOf g default = .ok (lanes, places)) :
    ∃ assignment, Placed g (lanes, assignment) places := by
  obtain ⟨_, _, hlane⟩ := placesOf_eq_ok h
  obtain ⟨assignment, columns, startLane, placed, hlanes, hstart, hplaced, rfl⟩ := placesOf_parts h
  refine ⟨assignment, ?_, hlane, (grouped_of_assignLanes hlanes).nodup, pairwise_ranked _ _⟩
  have hstates : placed.map (fun p => (p.id, p.label, some p.lane)) =
      g.nodes.map fun s => (s.id, s.label, Assoc.get? s.id assignment) := by
    refine Except.map_eq_of_mapM (fun s _ p hp => ?_) hplaced
    obtain ⟨hid, _, hlane, _⟩ := placement_eq_ok hp
    rw [hid, label_of_placement hp, hlane]
  have hranked := congrArg (List.map fun p : Placement => (p.id, p.label, some p.lane))
    (ranked_fst [] (⟨startNode, .str startLabel, startLane, 0⟩ :: placed))
  rw [List.map_map, List.map_cons, hstates, ← hstart] at hranked
  exact hranked

/-- What a layout was drawn from. -/
theorem drawing_of_layout {g : Graph} {geometry : Geometry} {default : String} {l : Layout}
    (h : layout g geometry default = .ok l) :
    ∃ lanes places nodes assignment, placesOf g default = .ok (lanes, places) ∧
      Placed g (lanes, assignment) places ∧ l.bands = bandsOf geometry lanes places ∧
      places.mapM (nodeOf geometry l.bands) = .ok nodes ∧
      l.nodes = Assoc.ofPairs (nodes.map fun n => (n.id, n)) ∧
      l.pool = ⟨geometry.poolX, geometry.poolY, geometry.laneHeaderWidth +
          above (places.map (·.1.column)) * geometry.columnWidth,
        (stack geometry (above (places.map (·.1.column)) * geometry.columnWidth) places
          geometry.poolY lanes).2 - geometry.poolY⟩ := by
  obtain ⟨⟨lanes, places⟩, hplaces, h⟩ := Except.bind_eq_ok.mp h
  obtain ⟨nodes, hnodes, h⟩ := Except.bind_eq_ok.mp (Except.mapError_eq_ok.mp h)
  obtain ⟨assignment, hplaced⟩ := placed_of_placesOf hplaces
  cases h
  exact ⟨lanes, places, nodes, assignment, hplaces, hplaced, rfl, hnodes, rfl, rfl⟩

/-- The bands of lanes lie between the top and the bottom of their stack. -/
theorem Stacked.le_bottom {top bottom : Int} {bs : List Bounds} (h : Stacked top bottom bs) :
    top ≤ bottom ∧ ∀ b ∈ bs, b.bottom ≤ bottom := by
  induction bs generalizing top with
  | nil => exact ⟨Int.le_of_eq h, List.forall_mem_nil _⟩
  | cons first rest ih =>
    obtain ⟨htop, hheight, hrest⟩ := h
    obtain ⟨hle, hbelow⟩ := ih hrest
    refine ⟨?_, List.forall_mem_cons.mpr ⟨hle, hbelow⟩⟩
    simp only [Bounds.bottom] at hle
    omega

section Layouts

variable {g : Graph} {geometry : Geometry} {default : String} {l : Layout} {name : Json} {n : Node}

/-- What is stored under a name was made of a place. -/
theorem nodeOf_of_get? {places : List (Placement × Nat)} {nodes : List Node} {bands : List Band}
    (hnodes : places.mapM (nodeOf geometry bands) = .ok nodes)
    (hn : Assoc.get? name (Assoc.ofPairs (nodes.map fun n => (n.id, n))) = some n) :
    n ∈ nodes ∧ ∃ place ∈ places, nodeOf geometry bands place = .ok n := by
  have hmem := Assoc.mem_values_ofPairs (Assoc.mem_values_of_get? hn)
  rw [List.map_map] at hmem
  obtain ⟨m, hm, rfl⟩ := List.mem_map.mp hmem
  exact ⟨hm, Except.exists_of_mem_mapM hnodes hm⟩

/-- A node of a layout has the size of its shape, and is centred in its cell of a band.  All bands
    begin at the same place. -/
theorem node_of_layout (h : layout g geometry default = .ok l)
    (hn : Assoc.get? name l.nodes = some n) : ∃ size, shapeSize geometry n.label = .ok size ∧
      n.bounds = cellBounds geometry (bandBounds l.bands n.lane) n.column n.rank size ∧
      (bandBounds l.bands n.lane).x = geometry.poolX + geometry.laneHeaderWidth := by
  obtain ⟨lanes, places, _, _, _, hplaced, hbands, hnodes, hstored, _⟩ := drawing_of_layout h
  rw [hstored] at hn
  obtain ⟨_, place, hplace, hnode⟩ := nodeOf_of_get? hnodes hn
  obtain ⟨size, hsize, hnode⟩ := Except.bind_eq_ok.mp hnode
  cases hnode
  refine ⟨size, hsize, rfl, ?_⟩
  -- The lane of the place has a band.
  have hids := bandsOf_ids geometry lanes places
  have hlane := hplaced.lane place hplace
  rw [← hids] at hlane
  obtain ⟨band, hband, hid⟩ := List.mem_map.mp hlane
  rw [hbands, ← hid, bandBounds_of_mem (by rw [hids]; exact hplaced.lanes) hband]
  exact (stack_bands hband).1

/-- Shapes have no negative sizes. -/
theorem shapeSize_nonneg (hg : geometry.Fits) {label : Json} {size : Int × Int}
    (h : shapeSize geometry label = .ok size) : 0 ≤ size.1 ∧ 0 ≤ size.2 := by
  rw [shapeSize] at h
  cases hk : Kind.ofLabel? label with
  | none =>
    simp only [hk] at h
    split at h
    · cases h; exact ⟨hg.eventWidth.1, hg.eventWidth.1⟩
    · cases h
  | some kind =>
    simp only [hk] at h
    cases kind with
    | choice => cases h; exact ⟨hg.gatewayWidth.1, hg.gatewayWidth.1⟩
    | stop => cases h; exact ⟨hg.eventWidth.1, hg.eventWidth.1⟩
    | _ => cases h; exact ⟨hg.taskWidth.1, hg.taskHeight.1⟩

/-- The nodes of a layout lie within its pool, if shapes fit into cells. -/
theorem framed_of_layout (hg : geometry.Fits) (h : layout g geometry default = .ok l)
    (hn : Assoc.get? name l.nodes = some n) : l.pool.Contains n.bounds ∧ n.bounds.IsSized := by
  obtain ⟨size, hsize, hbounds, _⟩ := node_of_layout h hn
  obtain ⟨lanes, places, nodes, _, _, hplaced, hbands, hnodes, hstored, hpool⟩ :=
    drawing_of_layout h
  rw [hstored] at hn
  rw [hbands] at hnodes
  obtain ⟨hmem, _⟩ := nodeOf_of_get? hnodes hn
  obtain ⟨band, hband, _, _, hinside⟩ := hplaced.node_in_band hg hnodes hmem
  have hstack : Stacked geometry.poolY (stack geometry
      (above (places.map (·.1.column)) * geometry.columnWidth) places geometry.poolY lanes).2
      ((bandsOf geometry lanes places).map (·.bounds)) := stacked_stack hg
  have hstacked := List.mem_map_of_mem (f := (·.bounds)) hband
  constructor
  · -- The band of the node lies within the pool.
    refine Bounds.Contains.trans ?_ hinside
    obtain ⟨hx, hwidth, _⟩ := stack_bands hband
    have hheader := hg.header
    have htop := hstack.top_le _ hstacked
    have hbottom := hstack.le_bottom.2 _ hstacked
    rw [hpool]
    constructor <;> simp only [Bounds.right, Bounds.bottom, hx, hwidth] at hbottom ⊢ <;> omega
  · rw [hbounds]
    exact shapeSize_nonneg hg hsize

/-- In every layout the way between two nodes connects them, and does not leave the pool. -/
theorem connects_route (hg : geometry.Fits) (h : layout g geometry default = .ok l)
    {name' : Json} {n' : Node} (hn : Assoc.get? name l.nodes = some n)
    (hn' : Assoc.get? name' l.nodes = some n') :
    Connects l.pool n.bounds n'.bounds (route n n') := by
  obtain ⟨hinside, hsized⟩ := framed_of_layout hg h hn
  obtain ⟨hinside', hsized'⟩ := framed_of_layout hg h hn'
  exact connects_routeBetween hinside hinside' hsized hsized' _ _

end Layouts

end Swimlane.Diagram
