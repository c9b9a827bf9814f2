import Swimlane.Proofs.Placement

/-!
# Drawings without overlaps

A diagram is a grid: its columns are shared by all lanes, the bands of the lanes are stacked, and
in its band every lane has as many rows as it needs.  A node is centred in the cell of its column
and rank.  If shapes fit into a cell, then different nodes are in different cells, and so are
apart.

## Key results

- `stack_bands`, `stacked_stack`: the bands of lanes, one below the other
- `inCell_of_nodeOf`: a node lies in its cell
- `Placed.apart`: nodes in different cells are apart
- `Placed.sound_draw`: a drawing is free of overlaps, and everything is inside of what it belongs to
-/

namespace Swimlane

/-- Measures of a diagram that leave room for every shape in a cell. -/
structure Geometry.Fits (geometry : Geometry) : Prop where
  padding : 0 ≤ geometry.lanePadding
  header : 0 ≤ geometry.laneHeaderWidth
  taskWidth : 0 ≤ geometry.taskWidth ∧ geometry.taskWidth ≤ geometry.columnWidth
  gatewayWidth : 0 ≤ geometry.gatewaySize ∧ geometry.gatewaySize ≤ geometry.columnWidth
  eventWidth : 0 ≤ geometry.eventSize ∧ geometry.eventSize ≤ geometry.columnWidth
  taskHeight : 0 ≤ geometry.taskHeight ∧ geometry.taskHeight ≤ geometry.rowHeight
  gatewayHeight : geometry.gatewaySize ≤ geometry.rowHeight
  eventHeight : geometry.eventSize ≤ geometry.rowHeight

/-- The measures that diagrams have if nothing else is said leave room for every shape. -/
theorem Geometry.fits_default : ({} : Geometry).Fits := by
  constructor <;> decide

namespace Geometry.Fits

variable {geometry : Geometry}

/-- Columns have a width. -/
theorem columnWidth (h : geometry.Fits) : 0 ≤ geometry.columnWidth :=
  h.taskWidth.1.trans h.taskWidth.2

/-- Rows have a height. -/
theorem rowHeight (h : geometry.Fits) : 0 ≤ geometry.rowHeight :=
  h.taskHeight.1.trans h.taskHeight.2

end Geometry.Fits

namespace Diagram

/-! ## Rectangles -/

namespace Bounds

/-- A point is inside of a rectangle, and not on its edge. -/
def Interior (b : Bounds) (x y : ℚ) : Prop := b.x < x ∧ x < b.right ∧ b.y < y ∧ y < b.bottom

/-- A rectangle is beside, above or below another. -/
def Apart (b c : Bounds) : Prop :=
  b.right ≤ c.x ∨ c.right ≤ b.x ∨ b.bottom ≤ c.y ∨ c.bottom ≤ b.y

/-- A rectangle lies within another. -/
structure Contains (outer inner : Bounds) : Prop where
  left : outer.x ≤ inner.x
  right : inner.right ≤ outer.right
  top : outer.y ≤ inner.y
  bottom : inner.bottom ≤ outer.bottom

/-- Rectangles that are apart share no point but on their edges. -/
theorem Apart.no_interior {b c : Bounds} (h : b.Apart c) (x y : ℚ) :
    ¬ (b.Interior x y ∧ c.Interior x y) := by
  rintro ⟨⟨hb₁, hb₂, hb₃, hb₄⟩, hc₁, hc₂, hc₃, hc₄⟩
  rcases h with h | h | h | h
  · exact absurd (Int.cast_le.mpr h) (not_le.mpr (hc₁.trans hb₂))
  · exact absurd (Int.cast_le.mpr h) (not_le.mpr (hb₁.trans hc₂))
  · exact absurd (Int.cast_le.mpr h) (not_le.mpr (hc₃.trans hb₄))
  · exact absurd (Int.cast_le.mpr h) (not_le.mpr (hb₃.trans hc₄))

/-- Rectangles within others that are above each other are apart. -/
theorem apart_of_contains {b c outer outer' : Bounds} (hb : outer.Contains b)
    (hc : outer'.Contains c) (h : outer.bottom ≤ outer'.y ∨ outer'.bottom ≤ outer.y) :
    b.Apart c := by
  rcases h with h | h
  · exact Or.inr (Or.inr (Or.inl ((hb.bottom.trans h).trans hc.top)))
  · exact Or.inr (Or.inr (Or.inr ((hc.bottom.trans h).trans hb.top)))

end Bounds

/-- Rectangles follow each other from the top to the bottom, without a gap between them. -/
def Stacked (top bottom : Int) : List Bounds → Prop
  | [] => top = bottom
  | b :: rest => b.y = top ∧ 0 ≤ b.height ∧ Stacked b.bottom bottom rest

/-- Nothing in a stack is above its top. -/
theorem Stacked.top_le {top bottom : Int} {bs : List Bounds} (h : Stacked top bottom bs) :
    ∀ b ∈ bs, top ≤ b.y := by
  induction bs generalizing top with
  | nil => intro b hb; cases hb
  | cons first rest ih =>
    obtain ⟨htop, hheight, hrest⟩ := h
    intro b hb
    rcases List.mem_cons.mp hb with rfl | hb
    · exact htop.ge
    · have hle := ih hrest b hb
      simp only [Bounds.bottom] at hle
      omega

/-- What is later in a stack is below. -/
theorem Stacked.pairwise {top bottom : Int} {bs : List Bounds} (h : Stacked top bottom bs) :
    bs.Pairwise fun b c => b.bottom ≤ c.y := by
  induction bs generalizing top with
  | nil => exact .nil
  | cons first rest ih =>
    obtain ⟨_, _, hrest⟩ := h
    exact List.pairwise_cons.mpr ⟨hrest.top_le, ih hrest⟩

/-! ## Bands -/

section Bands

variable {geometry : Geometry} {width y : Int} {places : List (Placement × Nat)} {lanes : List Lane}

/-- Every lane has a band, in order. -/
theorem stack_lanes : (stack geometry width places y lanes).1.map (·.lane) = lanes := by
  induction lanes generalizing y with
  | nil => rfl
  | cons lane rest ih => rw [stack, List.map_cons, ih]

/-- All bands begin behind the head of the lanes and have the same width, and their heights leave
    room for the rows of their lanes. -/
theorem stack_bands {band : Band} (h : band ∈ (stack geometry width places y lanes).1) :
    band.bounds.x = geometry.poolX + geometry.laneHeaderWidth ∧ band.bounds.width = width ∧
      band.bounds.height =
        rowsOf band.lane.id places * geometry.rowHeight + 2 * geometry.lanePadding ∧
      band.rows = rowsOf band.lane.id places := by
  induction lanes generalizing y with
  | nil => cases h
  | cons lane rest ih =>
    rw [stack] at h
    rcases List.mem_cons.mp h with rfl | h
    · exact ⟨rfl, rfl, rfl, rfl⟩
    · exact ih h

/-- The bands are stacked. -/
theorem stacked_stack (hg : geometry.Fits) : Stacked y (stack geometry width places y lanes).2
    ((stack geometry width places y lanes).1.map (·.bounds)) := by
  induction lanes generalizing y with
  | nil => rfl
  | cons lane rest ih =>
    have hrows : 0 ≤ (rowsOf lane.id places : Int) * geometry.rowHeight :=
      Int.mul_nonneg (Int.natCast_nonneg _) hg.rowHeight
    have hpadding := hg.padding
    refine ⟨rfl, ?_, ih⟩
    show 0 ≤ (rowsOf lane.id places : Int) * geometry.rowHeight + 2 * geometry.lanePadding
    omega

/-- The bounds of a lane are those of its band. -/
theorem bandBounds_of_mem {bands : List Band} (hn : (bands.map (·.lane.id)).Nodup) {band : Band}
    (h : band ∈ bands) : bandBounds bands band.lane.id = band.bounds := by
  cases hf : bands.find? (·.lane.id == band.lane.id) with
  | none => exact absurd (List.find?_eq_none.mp hf band h) (by simp)
  | some found =>
    have hid : found.lane.id = band.lane.id := by simpa using List.find?_some hf
    have heq := List.inj_on_of_nodup_map hn (List.mem_of_find?_eq_some hf) h hid
    rw [bandBounds, hf, heq]
    rfl

/-- Of two bands one is below the other. -/
theorem band_below (hg : geometry.Fits) {a b : Band}
    (ha : a ∈ (stack geometry width places y lanes).1)
    (hb : b ∈ (stack geometry width places y lanes).1) (hne : a ≠ b) :
    a.bounds.bottom ≤ b.bounds.y ∨ b.bounds.bottom ≤ a.bounds.y := by
  have hpair : (stack geometry width places y lanes).1.Pairwise fun a b =>
      a.bounds.bottom ≤ b.bounds.y ∨ b.bounds.bottom ≤ a.bounds.y :=
    (List.pairwise_map.mp (stacked_stack hg).pairwise).imp Or.inl
  have hsymm : Std.Symm fun a b : Band =>
      a.bounds.bottom ≤ b.bounds.y ∨ b.bounds.bottom ≤ a.bounds.y := ⟨fun _ _ h => h.symm⟩
  exact hpair.forall ha hb hne

end Bands

/-! ## Cells -/

/-- A node lies in the cell of its column and rank in a band. -/
structure InCell (geometry : Geometry) (band : Bounds) (n : Node) : Prop where
  left : band.x + n.column * geometry.columnWidth ≤ n.bounds.x
  right : n.bounds.right ≤ band.x + (n.column + 1) * geometry.columnWidth
  top : band.y + geometry.lanePadding + n.rank * geometry.rowHeight ≤ n.bounds.y
  bottom : n.bounds.bottom ≤ band.y + geometry.lanePadding + (n.rank + 1) * geometry.rowHeight

/-- The shapes of states and of the start event are known. -/
theorem exists_shapeSize (geometry : Geometry) {label : Json}
    (h : (Kind.ofLabel? label).isSome = true ∨ label = .str startLabel) :
    ∃ size, shapeSize geometry label = .ok size := by
  rw [shapeSize]
  cases hk : Kind.ofLabel? label with
  | none =>
    rw [hk] at h
    have hstart := h.resolve_left (by simp)
    exact ⟨_, by rw [hstart]; rfl⟩
  | some kind => cases kind <;> exact ⟨_, rfl⟩

/-- Every shape fits into a cell. -/
theorem shapeSize_fits {geometry : Geometry} (hg : geometry.Fits) {label : Json}
    {width height : Int} (h : shapeSize geometry label = .ok (width, height)) :
    width ≤ geometry.columnWidth ∧ height ≤ geometry.rowHeight := by
  rw [shapeSize] at h
  cases hk : Kind.ofLabel? label with
  | none =>
    simp only [hk] at h
    split at h
    · cases h; exact ⟨hg.eventWidth.2, hg.eventHeight⟩
    · cases h
  | some kind =>
    simp only [hk] at h
    cases kind with
    | choice => cases h; exact ⟨hg.gatewayWidth.2, hg.gatewayHeight⟩
    | stop => cases h; exact ⟨hg.eventWidth.2, hg.eventHeight⟩
    | _ => cases h; exact ⟨hg.taskWidth.2, hg.taskHeight.2⟩

/-- What is centred in a room for it does not stick out. -/
theorem centred {room size : Int} (h : size ≤ room) :
    0 ≤ Int.fdiv (room - size) 2 ∧ Int.fdiv (room - size) 2 + size ≤ room := by
  rw [Int.fdiv_eq_ediv_of_nonneg _ (by omega)]
  omega

/-- A node has the name, the label and the place of its placement. -/
theorem nodeOf_eq_ok {geometry : Geometry} {bands : List Band} {place : Placement × Nat} {n : Node}
    (h : nodeOf geometry bands place = .ok n) : n.id = place.1.id ∧ n.label = place.1.label ∧
      n.lane = place.1.lane ∧ n.column = place.1.column ∧ n.rank = place.2 := by
  obtain ⟨size, _, h⟩ := Except.bind_eq_ok.mp h
  cases h
  exact ⟨rfl, rfl, rfl, rfl, rfl⟩

/-- A node lies in its cell. -/
theorem inCell_of_nodeOf {geometry : Geometry} (hg : geometry.Fits) {bands : List Band}
    {place : Placement × Nat} {n : Node} (h : nodeOf geometry bands place = .ok n) :
    InCell geometry (bandBounds bands n.lane) n := by
  obtain ⟨⟨width, height⟩, hsize, h⟩ := Except.bind_eq_ok.mp h
  cases h
  obtain ⟨hwidth, hheight⟩ := shapeSize_fits hg hsize
  obtain ⟨hx, hright⟩ := centred hwidth
  obtain ⟨hy, hbottom⟩ := centred hheight
  constructor
  · simp only [cellBounds]
    omega
  · simp only [cellBounds, Bounds.right, Int.add_mul, Int.one_mul]
    omega
  · simp only [cellBounds]
    omega
  · simp only [cellBounds, Bounds.bottom, Int.add_mul, Int.one_mul]
    omega

/-- A later column, or a later row, begins behind an earlier one. -/
theorem succ_mul_le {m n : Nat} (h : m < n) {size : Int} (hs : 0 ≤ size) :
    ((m : Int) + 1) * size ≤ n * size :=
  Int.mul_le_mul_of_nonneg_right (by omega) hs

section Cells

variable {geometry : Geometry}

/-- A node in a cell of a band lies within the band, if the band has the column and the row. -/
theorem InCell.contains (hg : geometry.Fits) {band : Bounds} {n : Node} (h : InCell geometry band n)
    {columns rows : Nat} (hc : n.column < columns) (hr : n.rank < rows)
    (hw : band.width = columns * geometry.columnWidth)
    (hh : band.height = rows * geometry.rowHeight + 2 * geometry.lanePadding) :
    band.Contains n.bounds := by
  have hcolumn := succ_mul_le hc hg.columnWidth
  have hrow := succ_mul_le hr hg.rowHeight
  have hleft : 0 ≤ (n.column : Int) * geometry.columnWidth :=
    Int.mul_nonneg (Int.natCast_nonneg _) hg.columnWidth
  have htop : 0 ≤ (n.rank : Int) * geometry.rowHeight :=
    Int.mul_nonneg (Int.natCast_nonneg _) hg.rowHeight
  have hpadding := hg.padding
  have hright : band.right = band.x + columns * geometry.columnWidth := by rw [Bounds.right, hw]
  have hbottom : band.bottom = band.y + (rows * geometry.rowHeight + 2 * geometry.lanePadding) := by
    rw [Bounds.bottom, hh]
  obtain ⟨_, _, _, _⟩ := h
  constructor <;> omega

/-- Nodes in different columns are apart, if their bands begin at the same place. -/
theorem InCell.apart_of_column (hg : geometry.Fits) {band band' : Bounds} {m n : Node}
    (hm : InCell geometry band m) (hn : InCell geometry band' n) (hx : band.x = band'.x)
    (h : m.column ≠ n.column) : m.bounds.Apart n.bounds := by
  rcases Nat.lt_or_gt_of_ne h with h | h
  · have hle := succ_mul_le h hg.columnWidth
    exact Or.inl (by have := hm.right; have := hn.left; omega)
  · have hle := succ_mul_le h hg.columnWidth
    exact Or.inr (Or.inl (by have := hn.right; have := hm.left; omega))

/-- A node of larger rank in the same band is apart. -/
theorem InCell.apart_of_rank (hg : geometry.Fits) {band : Bounds} {m n : Node}
    (hm : InCell geometry band m) (hn : InCell geometry band n) (h : m.rank < n.rank) :
    m.bounds.Apart n.bounds := by
  have hle := succ_mul_le h hg.rowHeight
  exact Or.inr (Or.inr (Or.inl (by have := hm.bottom; have := hn.top; omega)))

end Cells

/-! ## Drawings -/

/-- A diagram whose nodes share no point but on their edges, and whose parts lie within each other:
    the nodes within the bands of their lanes, and the bands within the pool, of which they leave
    nothing free but the head of the lanes. -/
structure Layout.Sound (l : Layout) (geometry : Geometry) : Prop where
  apart : l.nodes.Pairwise fun p q =>
    ∀ x y : ℚ, ¬ (p.2.bounds.Interior x y ∧ q.2.bounds.Interior x y)
  inside : ∀ p ∈ l.nodes, ∃ band ∈ l.bands, band.lane.id = p.2.lane ∧
    band.bounds.Contains p.2.bounds
  lanes : (l.bands.map (·.lane.id)).Nodup
  sides : ∀ band ∈ l.bands, band.bounds.x = l.pool.x + geometry.laneHeaderWidth ∧
    band.bounds.right = l.pool.right
  stacked : Stacked l.pool.y l.pool.bottom (l.bands.map (·.bounds))

section Drawings

variable {geometry : Geometry} {g : Graph} {a : Assignment} {places : List (Placement × Nat)}

/-- The labels of all places are known if those of the states are. -/
theorem Placed.label_known (h : Placed g a places)
    (hl : ∀ s ∈ g.nodes, (Kind.ofLabel? s.label).isSome = true) {p : Placement × Nat}
    (hp : p ∈ places) :
    (Kind.ofLabel? p.1.label).isSome = true ∨ p.1.label = .str startLabel := by
  have hmem := List.mem_map_of_mem (f := fun p => (p.1.id, p.1.label, some p.1.lane)) hp
  rw [h.states] at hmem
  rcases List.mem_cons.mp hmem with heq | hmem
  · exact Or.inr (Prod.mk.inj (Prod.mk.inj heq).2).1
  · obtain ⟨s, hs, heq⟩ := List.mem_map.mp hmem
    have hlabel := (Prod.mk.inj (Prod.mk.inj heq).2).1
    exact Or.inl (hlabel ▸ hl s hs)

/-- The places stand under the name of the start event and the keys of the states. -/
theorem Placed.ids (h : Placed g a places) (hk : g.Keyed) :
    places.map (·.1.id) = ("__start__" :: g.keys).map .str := by
  have hids := congrArg (List.map (·.1)) h.states
  rw [List.map_map, List.map_cons, List.map_map] at hids
  rw [List.map_cons, ← hk.ids]
  exact hids

/-- Places whose labels are known can be drawn, with any measures. -/
theorem Placed.exists_draw (h : Placed g a places)
    (hl : ∀ s ∈ g.nodes, (Kind.ofLabel? s.label).isSome = true) (geometry : Geometry) :
    ∃ l, draw geometry a.1 places = .ok l := by
  have hnodes : ∀ bands, ∃ nodes, places.mapM (nodeOf geometry bands) = .ok nodes := by
    intro bands
    refine Except.exists_mapM_eq_ok fun p hp => ?_
    obtain ⟨size, hsize⟩ := exists_shapeSize geometry (h.label_known hl hp)
    exact ⟨_, Except.bind_eq_ok.mpr ⟨size, hsize, rfl⟩⟩
  obtain ⟨nodes, hn⟩ := hnodes _
  exact ⟨_, Except.bind_eq_ok.mpr ⟨nodes, hn, rfl⟩⟩

/-- Nodes with texts for names are stored under strings. -/
theorem nodes_named {nodes : List Node} {keys : List String}
    (h : nodes.map (·.id) = keys.map .str) :
    nodes.map (fun n => (n.id, n)) =
        (nodes.map fun n => (n.id.display, n)).map (fun p => (.str p.1, p.2)) ∧
      (nodes.map fun n => (n.id.display, n)).map (·.1) = keys := by
  rw [List.map_map, List.map_map]
  constructor
  · refine List.map_congr_left fun n hn => ?_
    have hmem := List.mem_map_of_mem (f := (·.id)) hn
    rw [h] at hmem
    obtain ⟨key, _, hkey⟩ := List.mem_map.mp hmem
    simp [← hkey, Json.display]
  · have hdisplay := congrArg (List.map Json.display) h
    rw [List.map_map, List.map_map] at hdisplay
    exact hdisplay.trans (List.map_id' _)

/-- Nodes with different names are all stored, in their order. -/
theorem ofPairs_nodes {nodes : List Node} {keys : List String}
    (h : nodes.map (·.id) = keys.map .str) (hn : keys.Nodup) :
    Assoc.ofPairs (nodes.map fun n => (n.id, n)) = nodes.map fun n => (n.id, n) := by
  obtain ⟨hpairs, hkeys⟩ := nodes_named h
  rw [hpairs, Assoc.ofPairs_str]
  rw [hkeys]
  exact hn

/-- A drawing has one node for every place. -/
theorem Placed.nodes_of_draw (h : Placed g a places) (hk : g.Keyed) (hs : "__start__" ∉ g.keys)
    {bands : List Band} {nodes : List Node}
    (hn : places.mapM (nodeOf geometry bands) = .ok nodes) :
    Assoc.ofPairs (nodes.map fun n => (n.id, n)) = nodes.map fun n => (n.id, n) := by
  have hids : nodes.map (·.id) = ("__start__" :: g.keys).map .str := by
    rw [← h.ids hk]
    exact Except.map_eq_of_mapM (fun _ _ _ hn => (nodeOf_eq_ok hn).1) hn
  exact ofPairs_nodes hids (List.nodup_cons.mpr ⟨hs, hk.nodup⟩)

/-- The bands of a drawing. -/
def bandsOf (geometry : Geometry) (lanes : List Lane) (places : List (Placement × Nat)) :
    List Band :=
  (stack geometry (above (places.map (·.1.column)) * geometry.columnWidth) places geometry.poolY
    lanes).1

/-- The bands of a drawing have the ids of the lanes. -/
theorem bandsOf_ids (geometry : Geometry) (lanes : List Lane) (places : List (Placement × Nat)) :
    (bandsOf geometry lanes places).map (·.lane.id) = lanes.map (·.id) := by
  have hlanes : (bandsOf geometry lanes places).map (·.lane) = lanes := stack_lanes
  conv => rhs; rw [← hlanes]
  rw [List.map_map]
  rfl

/-- A node lies in its cell of the band of its lane, and within the band. -/
theorem Placed.node_in_band (h : Placed g a places) (hg : geometry.Fits) {nodes : List Node}
    (hn : places.mapM (nodeOf geometry (bandsOf geometry a.1 places)) = .ok nodes) {n : Node}
    (hmem : n ∈ nodes) : ∃ band ∈ bandsOf geometry a.1 places, band.lane.id = n.lane ∧
      InCell geometry band.bounds n ∧ band.bounds.Contains n.bounds := by
  obtain ⟨place, hplace, hnode⟩ := Except.exists_of_mem_mapM hn hmem
  obtain ⟨_, _, hlane, hcolumn, hrank⟩ := nodeOf_eq_ok hnode
  have hids := bandsOf_ids geometry a.1 places
  have hband := h.lane place hplace
  rw [← hids, ← hlane] at hband
  obtain ⟨band, hband, hid⟩ := List.mem_map.mp hband
  -- The cell is measured from the bounds that are looked up for the lane: those of this band.
  have hcell := inCell_of_nodeOf hg hnode
  rw [← hid, bandBounds_of_mem (by rw [hids]; exact h.lanes) hband] at hcell
  obtain ⟨_, hwidth, hheight, _⟩ := stack_bands hband
  refine ⟨band, hband, hid, hcell, hcell.contains hg ?_ ?_ hwidth hheight⟩
  · rw [hcolumn]
    exact lt_above (List.mem_map.mpr ⟨place, hplace, rfl⟩)
  · rw [hrank, hid, hlane]
    exact lt_rowsOf hplace

/-- Different nodes are apart: they are in different columns, in different bands, or they have
    different ranks. -/
theorem Placed.apart (h : Placed g a places) (hg : geometry.Fits) {nodes : List Node}
    (hn : places.mapM (nodeOf geometry (bandsOf geometry a.1 places)) = .ok nodes) :
    nodes.Pairwise fun m n => m.bounds.Apart n.bounds := by
  have hsame : nodes.map (fun n => (n.lane, n.column, n.rank)) =
      places.map fun p => (p.1.lane, p.1.column, p.2) := by
    refine Except.map_eq_of_mapM (fun p _ n hnode => ?_) hn
    obtain ⟨_, _, hlane, hcolumn, hrank⟩ := nodeOf_eq_ok hnode
    rw [hlane, hcolumn, hrank]
  have hranks : nodes.Pairwise fun m n =>
      m.lane = n.lane → m.column = n.column → m.rank < n.rank := by
    have hplaces : (places.map fun p => (p.1.lane, p.1.column, p.2)).Pairwise
        fun p q => p.1 = q.1 → p.2.1 = q.2.1 → p.2.2 < q.2.2 := List.pairwise_map.mpr h.ranks
    rw [← hsame] at hplaces
    exact List.pairwise_map.mp hplaces
  refine hranks.imp_of_mem fun {m n} hm hn' hrank => ?_
  obtain ⟨band, hband, hid, hcell, hinside⟩ := h.node_in_band hg hn hm
  obtain ⟨band', hband', hid', hcell', hinside'⟩ := h.node_in_band hg hn hn'
  by_cases hcolumn : m.column = n.column
  · by_cases hlane : m.lane = n.lane
    · -- Lanes have ids of their own, so both nodes are in one band.
      have hnodup : ((bandsOf geometry a.1 places).map (·.lane.id)).Nodup := by
        rw [bandsOf_ids]
        exact h.lanes
      have heq : band = band' := List.inj_on_of_nodup_map hnodup hband hband'
        (hid.trans (hlane.trans hid'.symm))
      subst heq
      exact hcell.apart_of_rank hg hcell' (hrank hlane hcolumn)
    · have hne : band ≠ band' := fun heq => hlane (by rw [← hid, heq, hid'])
      exact Bounds.apart_of_contains hinside hinside' (band_below hg hband hband' hne)
  · have hx : band.bounds.x = band'.bounds.x :=
      (stack_bands hband).1.trans (stack_bands hband').1.symm
    exact hcell.apart_of_column hg hcell' hx hcolumn

/-- A drawing has a band for every lane and a node for every place, and it is sound. -/
theorem Placed.sound_draw (h : Placed g a places) (hg : geometry.Fits) (hk : g.Keyed)
    (hs : "__start__" ∉ g.keys) {l : Layout} (hd : draw geometry a.1 places = .ok l) :
    l.bands.map (·.lane) = a.1 ∧
    l.nodes.map (fun p => (p.1, p.2.label, some p.2.lane)) =
      places.map (fun p => (p.1.id, p.1.label, some p.1.lane)) ∧ l.Sound geometry := by
  obtain ⟨nodes, hn, hl⟩ := Except.bind_eq_ok.mp hd
  cases hl
  have hn : places.mapM (nodeOf geometry (bandsOf geometry a.1 places)) = .ok nodes := hn
  have hnodes := h.nodes_of_draw hk hs hn
  refine ⟨stack_lanes, ?_, ?_⟩
  · rw [hnodes, List.map_map]
    refine Except.map_eq_of_mapM (fun p _ n hnode => ?_) hn
    obtain ⟨hid, hlabel, hlane, _⟩ := nodeOf_eq_ok hnode
    rw [Function.comp_apply, hid, hlabel, hlane]
  · constructor
    · rw [hnodes, List.pairwise_map]
      exact (h.apart hg hn).imp fun hapart x y => hapart.no_interior x y
    · rw [hnodes]
      intro p hp
      obtain ⟨n, hmem, rfl⟩ := List.mem_map.mp hp
      obtain ⟨band, hband, hid, _, hinside⟩ := h.node_in_band hg hn hmem
      exact ⟨band, hband, hid, hinside⟩
    · exact (bandsOf_ids geometry a.1 places).symm ▸ h.lanes
    · intro band hband
      obtain ⟨hx, hwidth, _⟩ := stack_bands hband
      refine ⟨hx, ?_⟩
      simp only [Bounds.right, hx, hwidth]
      omega
    · -- The pool is as high as the stack.
      have hbottom : ∀ b : Int, geometry.poolY + (b - geometry.poolY) = b := fun b => by omega
      simp only [Bounds.bottom, hbottom]
      exact stacked_stack hg

end Drawings

/-- An accepted graph can be laid out with any measures if texts tell who acts in its states. -/
theorem exists_layout {g : Graph} (hk : g.Keyed) {warnings : List String}
    (hv : g.validate = .ok warnings) (ha : ∀ s ∈ g.nodes, s.Attributed) (geometry : Geometry)
    (default : String) :
    ∃ a places l, assignLanes g (.str default) = .ok a ∧ Placed g a places ∧
      draw geometry a.1 places = .ok l ∧ layout g geometry default = .ok l := by
  obtain ⟨a, places, hlanes, hplaces, hplaced⟩ := exists_placesOf hk hv ha default
  have hlabels : ∀ s ∈ g.nodes, (Kind.ofLabel? s.label).isSome = true := fun s hs =>
    (Graph.checkState_eq_ok_iff.mp ((Graph.checked_of_validate hv).2 s hs)).1
  obtain ⟨l, hdraw⟩ := hplaced.exists_draw hlabels geometry
  refine ⟨a, places, l, hlanes, hplaced, hdraw, ?_⟩
  rw [layout, hplaces]
  exact Except.mapError_eq_ok.mpr hdraw

/-- A graph cannot be laid out if no text tells who acts in one of its states. -/
theorem layout_error {g : Graph} (hk : g.Keyed) (ha : ∃ s ∈ g.nodes, ¬ s.Attributed)
    (geometry : Geometry) (default : String) :
    layout g geometry default = .error (.misfit .notText) := by
  rw [layout, placesOf, assignLanes_error hk ha]
  rfl

end Diagram

end Swimlane
