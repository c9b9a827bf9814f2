import Swimlane.Proofs.LanePartition
import Swimlane.Proofs.SequenceFlows

/-!
# Cells and how full they are

A cell is a column of a lane.  The nodes of a cell are ranked from zero on, in the order in which
they were placed, while the nodes of all other cells are placed between them.  A lane has as many
rows as its fullest cell has nodes, and its height is measured in rows.

## Key results

- `ranked_cell`: the ranks in a cell, however much was placed before
- `isGreatest_rowsOf`: the rows of a lane are the size of its fullest cell
- `layout_counts`: ranks, rows and heights in a layout
-/

namespace Swimlane.Diagram

/-! ## Ranks -/

/-- Whether a placement is in a cell. -/
def Placement.isAt (lane : String) (column : Nat) (p : Placement) : Bool :=
  p.lane == lane && p.column == column

/-- A placement in a cell has the lane and the column of the cell. -/
theorem Placement.isAt_iff {lane : String} {column : Nat} {p : Placement} :
    p.isAt lane column = true ↔ p.lane = lane ∧ p.column = column := by
  simp [Placement.isAt]

/-- The ranks in a cell go on from the number of placements that were there before. -/
theorem ranked_cell (lane : String) (column : Nat) (earlier places : List Placement) :
    ((ranked earlier places).filter (·.1.isAt lane column)).map (·.2) =
      List.range' (earlier.countP (·.isAt lane column)) (places.countP (·.isAt lane column)) := by
  induction places generalizing earlier with
  | nil => rfl
  | cons p rest ih =>
    have hrest := ih (earlier ++ [p])
    rw [List.countP_append, List.countP_singleton] at hrest
    simp only [ranked, List.filter_cons, List.countP_cons]
    by_cases hp : p.isAt lane column = true
    · -- The placement gets the next rank of the cell.
      have hrank : earlier.countP (fun q => q.lane == p.lane && q.column == p.column) =
          earlier.countP (·.isAt lane column) := by
        obtain ⟨hlane, hcolumn⟩ := Placement.isAt_iff.mp hp
        rw [hlane, hcolumn]
        rfl
      rw [if_pos hp] at hrest
      rw [if_pos hp, if_pos hp, List.map_cons, hrest, hrank, List.range'_succ]
    · rw [if_neg hp, Nat.add_zero] at hrest
      rw [if_neg hp, if_neg hp, hrest, Nat.add_zero]

/-- In a cell there is a place of every rank below the number of its places, and no other. -/
theorem ranks_cell (lane : String) (column : Nat) (places : List Placement) :
    ((ranked [] places).filter (·.1.isAt lane column)).map (·.2) =
      List.range (places.countP (·.isAt lane column)) := by
  rw [ranked_cell, List.countP_nil, List.range_eq_range']

/-! ## Rows -/

/-- The rows of a lane in which something is placed are as many as its fullest cell has places. -/
theorem isGreatest_rowsOf {lane : String} {places : List Placement}
    (h : ∃ p ∈ places, p.lane = lane) :
    IsGreatest {n | ∃ column, n = places.countP (·.isAt lane column)}
      (rowsOf lane (ranked [] places)) := by
  -- The ranks that occur in the lane.
  have hranks : ∀ n, n ∈ ((ranked [] places).filter (·.1.lane == lane)).map (·.2) ↔
      ∃ column, n < places.countP (·.isAt lane column) := by
    intro n
    constructor
    · intro hn
      obtain ⟨p, hp, rfl⟩ := List.mem_map.mp hn
      obtain ⟨hp, hlane⟩ := List.mem_filter.mp hp
      refine ⟨p.1.column, List.mem_range.mp ?_⟩
      rw [← ranks_cell]
      have hat : p.1.isAt lane p.1.column = true :=
        Placement.isAt_iff.mpr ⟨beq_iff_eq.mp hlane, rfl⟩
      exact List.mem_map.mpr ⟨p, List.mem_filter.mpr ⟨hp, hat⟩, rfl⟩
    · rintro ⟨column, hn⟩
      rw [← List.mem_range, ← ranks_cell] at hn
      obtain ⟨p, hp, rfl⟩ := List.mem_map.mp hn
      obtain ⟨hp, hat⟩ := List.mem_filter.mp hp
      have hlane := (Placement.isAt_iff.mp hat).1
      exact List.mem_map.mpr ⟨p, List.mem_filter.mpr ⟨hp, beq_iff_eq.mpr hlane⟩, rfl⟩
  have hne : ((ranked [] places).filter (·.1.lane == lane)).map (·.2) ≠ [] := by
    obtain ⟨p, hp, hlane⟩ := h
    have hcount : 0 < places.countP (·.isAt lane p.column) :=
      List.countP_pos_iff.mpr ⟨p, hp, Placement.isAt_iff.mpr ⟨hlane, rfl⟩⟩
    exact List.ne_nil_of_mem ((hranks 0).mpr ⟨p.column, hcount⟩)
  obtain ⟨n, hn, habove⟩ := exists_mem_above hne
  have hrows : rowsOf lane (ranked [] places) = n + 1 := by
    rw [rowsOf, habove]
    omega
  -- No cell has more places than the greatest rank tells.
  have hle : ∀ column, places.countP (·.isAt lane column) ≤ n + 1 := by
    intro column
    by_contra hlt
    have := lt_above ((hranks (n + 1)).mpr ⟨column, by omega⟩)
    omega
  rw [hrows]
  constructor
  · obtain ⟨column, hcolumn⟩ := (hranks n).mp hn
    exact ⟨column, Nat.le_antisymm hcolumn (hle column)⟩
  · rintro m ⟨column, rfl⟩
    exact hle column

/-! ## Layouts -/

/-- The nodes of a lane in a column, in their order. -/
def Layout.cell (l : Layout) (lane : String) (column : Nat) : List Node :=
  (l.nodes.map (·.2)).filter fun n => n.lane == lane && n.column == column

/-- In a layout of a graph, the start event and the states are in the order of construction, and the
    start event is alone in the first column, in the lane of the start; the nodes of every cell
    are ranked in this order; and a lane has as many rows as its fullest cell has nodes. -/
structure Layout.Counts (l : Layout) (g : Graph) (geometry : Geometry) : Prop where
  order : l.nodes.map (fun p => (p.1, p.2.id)) =
    (startNode :: g.nodes.map (·.id)).map fun id => (id, id)
  start : ∃ start first, l.nodes.head? = some (startNode, start) ∧ start.column = 0 ∧
    (g.start, first) ∈ l.nodes.tail ∧ start.lane = first.lane
  later : ∀ p ∈ l.nodes.tail, 1 ≤ p.2.column
  ranks : ∀ lane column,
    (l.cell lane column).map (·.rank) = List.range (l.cell lane column).length
  rows : ∀ band ∈ l.bands, 1 ≤ band.rows ∧
    IsGreatest {n | ∃ column, n = (l.cell band.lane.id column).length} band.rows
  height : ∀ band ∈ l.bands,
    band.bounds.height = band.rows * geometry.rowHeight + 2 * geometry.lanePadding
  taller : 0 < geometry.rowHeight → ∀ b ∈ l.bands, ∀ b' ∈ l.bands, ∀ column,
    (∀ c, (l.cell b.lane.id c).length < (l.cell b'.lane.id column).length) →
      b.bounds.height < b'.bounds.height

section Layouts

variable {g : Graph} {geometry : Geometry} {places : List Placement} {bands : List Band}
  {nodes : List Node}

/-- Nodes are where their placements are, with the ranks of these. -/
theorem map_spots (h : (ranked [] places).mapM (nodeOf geometry bands) = .ok nodes) :
    nodes.map (fun n => (n.lane, n.column, n.rank)) =
      (ranked [] places).map fun p => (p.1.lane, p.1.column, p.2) := by
  refine Except.map_eq_of_mapM (fun p _ n hn => ?_) h
  obtain ⟨_, _, hlane, hcolumn, hrank⟩ := nodeOf_eq_ok hn
  rw [hlane, hcolumn, hrank]

/-- The ranks of the nodes of a cell. -/
theorem ranks_of_nodes (h : (ranked [] places).mapM (nodeOf geometry bands) = .ok nodes)
    (lane : String) (column : Nat) :
    (nodes.filter fun n => n.lane == lane && n.column == column).map (·.rank) =
      List.range (places.countP (·.isAt lane column)) := by
  -- Both sides look at lanes, columns and ranks only.
  have hcell := congrArg (fun spots => (spots.filter fun (x : String × Nat × Nat) =>
    x.1 == lane && x.2.1 == column).map (·.2.2)) (map_spots h)
  simp only [List.filter_map, List.map_map] at hcell
  rw [← ranks_cell]
  exact hcell

/-- The nodes of a cell are as many as its placements. -/
theorem length_of_nodes (h : (ranked [] places).mapM (nodeOf geometry bands) = .ok nodes)
    (lane : String) (column : Nat) :
    (nodes.filter fun n => n.lane == lane && n.column == column).length =
      places.countP (·.isAt lane column) := by
  have hlength := congrArg List.length (ranks_of_nodes h lane column)
  rwa [List.length_map, List.length_range] at hlength

section Placed

variable {members : List (State × String)} {a : Assignment} {columns : List (Json × Nat)}
  {placed : List Placement}

/-- A state is placed in the lane that it is assigned to. -/
theorem exists_place_of_state (h : g.nodes.mapM (placement a.1 a.2 columns) = .ok placed)
    {s : State} (hs : s ∈ g.nodes) {lane : String} (hget : Assoc.get? s.id a.2 = some lane) :
    ∃ p ∈ placed, p.id = s.id ∧ p.lane = lane := by
  have hsame : placed.map (fun p => (p.id, some p.lane)) =
      g.nodes.map fun s => (s.id, Assoc.get? s.id a.2) := by
    refine Except.map_eq_of_mapM (fun s _ p hs => ?_) h
    obtain ⟨hid, _, hlane, _⟩ := placement_eq_ok hs
    rw [hid, hlane]
  have hmem := List.mem_map_of_mem (f := fun s => (s.id, Assoc.get? s.id a.2)) hs
  rw [← hsame] at hmem
  obtain ⟨p, hp, heq⟩ := List.mem_map.mp hmem
  rw [hget, Prod.mk.injEq] at heq
  exact ⟨p, hp, heq.1, Option.some.inj heq.2⟩

variable (hm : members.map (·.1) = g.nodes) (ha : Attached members a)
  (h : g.nodes.mapM (placement a.1 a.2 columns) = .ok placed)

include hm ha h

/-- In every lane of a partition something is placed. -/
theorem exists_place (hp : Partitioned members a.1) {lane : Lane} (hl : lane ∈ a.1) :
    ∃ p ∈ placed, p.lane = lane.id := by
  -- A state that the lane lists is assigned to it.
  obtain ⟨id, hid⟩ := List.exists_mem_of_ne_nil _ (hp.nonempty lane hl)
  rw [hp.states lane hl] at hid
  obtain ⟨m, hmem, rfl⟩ := List.mem_map.mp hid
  obtain ⟨hmem, hkey⟩ := List.mem_filter.mp hmem
  have hstate : m.1 ∈ g.nodes := hm ▸ List.mem_map_of_mem (f := (·.1)) hmem
  obtain ⟨p, hplace, _, hlane⟩ := exists_place_of_state h hstate
    (ha.lane m hmem lane hl (beq_iff_eq.mp hkey).symm)
  exact ⟨p, hplace, hlane⟩

/-- The start of a graph has a place, in the lane that it is assigned to. -/
theorem exists_start_place {startLane : String} (hstart : Assoc.get? g.start a.2 = some startLane) :
    ∃ p ∈ placed, p.id = g.start ∧ p.lane = startLane := by
  obtain ⟨list, hlist, hkeys⟩ := ha.entries
  -- Only states are assigned to lanes.
  have hfound := hstart
  rw [hlist] at hfound
  obtain ⟨key, hkey, hmem⟩ := Assoc.mem_of_get?_str hfound
  have hdisplay := List.mem_map_of_mem (f := (·.1)) hmem
  rw [hkeys] at hdisplay
  obtain ⟨m, hmem, hid⟩ := List.mem_map.mp hdisplay
  have hstate : m.1 ∈ g.nodes := hm ▸ List.mem_map_of_mem (f := (·.1)) hmem
  have hid : m.1.id = g.start := by rw [ha.texts m hmem, hid, hkey]
  rw [← hid] at hstart ⊢
  exact exists_place_of_state h hstate hstart

end Placed

/-- How the layout of states with different texts for ids comes about. -/
theorem layout_parts {default : String} {l : Layout} {keys : List String}
    (hkeys : g.nodes.map (·.id) = keys.map .str) (hn : keys.Nodup) (hs : "__start__" ∉ keys)
    (h : layout g geometry default = .ok l) :
    ∃ lanes places nodes, placesOf g default = .ok (lanes, places) ∧
      l.bands = bandsOf geometry lanes places ∧ places.mapM (nodeOf geometry l.bands) = .ok nodes ∧
      nodes.map (·.id) = startNode :: g.nodes.map (·.id) ∧
      l.nodes = nodes.map fun n => (n.id, n) := by
  obtain ⟨⟨lanes, places⟩, hplaces, h⟩ := Except.bind_eq_ok.mp h
  obtain ⟨nodes, hnodes, h⟩ := Except.bind_eq_ok.mp (Except.mapError_eq_ok.mp h)
  have hids : nodes.map (·.id) = startNode :: g.nodes.map (·.id) := by
    rw [← (placesOf_eq_ok hplaces).2.1]
    exact Except.map_eq_of_mapM (fun _ _ _ hn => (nodeOf_eq_ok hn).1) hnodes
  have htexts : nodes.map (·.id) = ("__start__" :: keys).map .str := by
    rw [hids, hkeys]
    rfl
  cases h
  -- No node takes the entry of another one.
  exact ⟨lanes, places, nodes, hplaces, rfl, hnodes, hids,
    ofPairs_nodes htexts (List.nodup_cons.mpr ⟨hs, hn⟩)⟩

/-- The first of the nodes is the one of the first placement. -/
theorem nodes_of_first {first : Placement}
    (h : (ranked [] (first :: places)).mapM (nodeOf geometry bands) = .ok nodes) :
    ∃ start states, nodes = start :: states ∧ start.lane = first.lane ∧
      start.column = first.column ∧ states.map (fun n => (n.id, n.lane, n.column)) =
        places.map fun p => (p.id, p.lane, p.column) := by
  have hsame : nodes.map (fun n => (n.id, n.lane, n.column)) =
      (ranked [] (first :: places)).map fun p => (p.1.id, p.1.lane, p.1.column) := by
    refine Except.map_eq_of_mapM (fun p _ n hn => ?_) h
    obtain ⟨hid, _, hlane, hcolumn, _⟩ := nodeOf_eq_ok hn
    rw [hid, hlane, hcolumn]
  have hfirst := congrArg (List.map fun p : Placement => (p.id, p.lane, p.column))
    (ranked_fst [] (first :: places))
  rw [List.map_map] at hfirst
  have hsame := hsame.trans hfirst
  cases nodes with
  | nil => cases hsame
  | cons start states =>
    rw [List.map_cons, List.map_cons, List.cons.injEq, Prod.mk.injEq, Prod.mk.injEq] at hsame
    exact ⟨start, states, rfl, hsame.1.2.1, hsame.1.2.2, hsame.2⟩

/-- The nodes of a cell of a layout that stores all nodes. -/
theorem Layout.cell_eq {l : Layout} (h : l.nodes = nodes.map fun n => (n.id, n)) (lane : String)
    (column : Nat) :
    l.cell lane column = nodes.filter fun n => n.lane == lane && n.column == column := by
  rw [Layout.cell, h, List.map_map]
  exact congrArg (List.filter _) (List.map_id nodes)

/-- A band in the lane of some placement has as many rows as its fullest cell has placements. -/
theorem rows_of_band {lanes : List Lane} {band : Band}
    (h : band ∈ bandsOf geometry lanes (ranked [] places)) {p : Placement} (hp : p ∈ places)
    (hlane : p.lane = band.lane.id) : 1 ≤ band.rows ∧
      IsGreatest {n | ∃ column, n = places.countP (·.isAt band.lane.id column)} band.rows := by
  have hgreatest := isGreatest_rowsOf ⟨p, hp, hlane⟩
  rw [(stack_bands h).2.2.2]
  constructor
  · -- The cell of the placement is not empty.
    apply Nat.le_trans _ (hgreatest.2 ⟨p.column, rfl⟩)
    exact List.countP_pos_iff.mpr ⟨p, hp, Placement.isAt_iff.mpr ⟨hlane, rfl⟩⟩
  · exact hgreatest

/-- A layout of states with different texts for ids counts what is in its cells. -/
theorem counts_of_layout {default : String} {l : Layout} {keys : List String}
    (hkeys : g.nodes.map (·.id) = keys.map .str) (hn : keys.Nodup) (hs : "__start__" ∉ keys)
    (h : layout g geometry default = .ok l) : l.Counts g geometry := by
  obtain ⟨lanes, _, nodes, hplaces, hbands, hnodes, hids, hstored⟩ := layout_parts hkeys hn hs h
  obtain ⟨_, _, _, placed, hlanes, hstart, hplaced, rfl⟩ := placesOf_parts hplaces
  obtain ⟨members, hm, _, hp, ha⟩ := partitioned_of_assignLanes hkeys hn hlanes
  obtain ⟨start, states, rfl, hlane, hcolumn, hstates⟩ := nodes_of_first hnodes
  have hlength : ∀ lane column, (l.cell lane column).length = _ := fun lane column =>
    (congrArg List.length (Layout.cell_eq hstored lane column)).trans
      (length_of_nodes hnodes lane column)
  have hrows : ∀ band ∈ l.bands, 1 ≤ band.rows ∧
      IsGreatest {n | ∃ column, n = (l.cell band.lane.id column).length} band.rows := by
    intro band hband
    have hmem := List.mem_map_of_mem (f := (·.lane)) hband
    rw [hbands, bandsOf, stack_lanes] at hmem
    obtain ⟨p, hplace, hid⟩ := exists_place hm ha hplaced hp hmem
    simp only [hlength]
    exact rows_of_band (hbands ▸ hband) (List.mem_cons_of_mem _ hplace) hid
  have hheight : ∀ band ∈ l.bands,
      band.bounds.height = band.rows * geometry.rowHeight + 2 * geometry.lanePadding := by
    intro band hband
    rw [hbands] at hband
    obtain ⟨_, _, hheight, hrows⟩ := stack_bands hband
    rw [hrows, hheight]
  constructor
  case order =>
    rw [hstored, ← hids, List.map_map, List.map_map]
    rfl
  case start =>
    obtain ⟨p, hplace, hid, hfirst⟩ := exists_start_place hm ha hplaced hstart
    have hmem := List.mem_map_of_mem (f := fun p : Placement => (p.id, p.lane, p.column)) hplace
    rw [← hstates] at hmem
    obtain ⟨n, hn, heq⟩ := List.mem_map.mp hmem
    rw [Prod.mk.injEq, Prod.mk.injEq] at heq
    refine ⟨start, n, ?_, hcolumn, ?_, ?_⟩
    · have hname : start.id = startNode := (List.cons.inj hids).1
      rw [hstored, List.map_cons, List.head?_cons, hname]
    · rw [hstored, ← hid, ← heq.1]
      exact List.mem_map_of_mem hn
    · rw [hlane, heq.2.1, hfirst]
  case later =>
    intro q hq
    rw [hstored] at hq
    obtain ⟨n, hn, rfl⟩ := List.mem_map.mp hq
    have hmem := List.mem_map_of_mem (f := fun n : Node => (n.id, n.lane, n.column)) hn
    rw [hstates] at hmem
    obtain ⟨p, hplace, heq⟩ := List.mem_map.mp hmem
    rw [Prod.mk.injEq, Prod.mk.injEq] at heq
    obtain ⟨s, _, hs⟩ := Except.exists_of_mem_mapM hplaced hplace
    rw [← heq.2.2]
    exact (placement_eq_ok hs).2.2.2
  case ranks =>
    intro lane column
    rw [hlength, Layout.cell_eq hstored]
    exact ranks_of_nodes hnodes lane column
  case rows => exact hrows
  case height => exact hheight
  case taller =>
    intro hpos b hb b' hb' column hless
    obtain ⟨c, hc⟩ := (hrows b hb).2.1
    have hle := (hrows b' hb').2.2 ⟨column, rfl⟩
    have hlt : b.rows < b'.rows := hc ▸ Nat.lt_of_lt_of_le (hless c) hle
    rw [hheight b hb, hheight b' hb']
    have hscaled : (b.rows : Int) * geometry.rowHeight < b'.rows * geometry.rowHeight :=
      Int.mul_lt_mul_of_pos_right (by omega) hpos
    omega

end Layouts

/-- Every layout of a graph whose states have different texts for ids, none of which is the name of
    the start event, counts what is in its cells.  If the states are stored under their ids and the
    graph is accepted, then it has a layout exactly if texts tell who acts in its states. -/
theorem layout_counts {g : Graph} {keys : List String} (hkeys : g.nodes.map (·.id) = keys.map .str)
    (hn : keys.Nodup) (hs : "__start__" ∉ keys) (geometry : Geometry) (default : String) :
    (∀ l, layout g geometry default = .ok l → l.Counts g geometry) ∧
    (g.Keyed → ∀ warnings, g.validate = .ok warnings →
      ((∀ s ∈ g.nodes, s.Attributed) → ∃ l, layout g geometry default = .ok l) ∧
      ((∃ s ∈ g.nodes, ¬ s.Attributed) →
        layout g geometry default = .error (.misfit .notText))) := by
  constructor
  · exact fun l hl => counts_of_layout hkeys hn hs hl
  · intro hk warnings hv
    constructor
    · intro ha
      obtain ⟨_, _, l, _, _, _, hl⟩ := exists_layout hk hv ha geometry default
      exact ⟨l, hl⟩
    · exact fun ha => layout_error hk ha geometry default

/-- A flow in which two tasks of one lane follow the same choice. -/
def crowdedFlow : Graph :=
  { name := "Sort"
    start := .str "file"
    states := [
      ("file", State.make "file" (.userTask (.str "p") (.str "clerk") none) (.str "sort")),
      ("print", State.make "print" (.task (.str "print it")) (.str "done")),
      ("sort", State.make "sort" (.choice (.list [⟨.str "x", .str "print"⟩]) (.str "send")) .null),
      ("send", State.make "send" (.task (.str "send it")) (.str "done")),
      ("done", State.make "done" (.stop (.str "")) .null)]
    warnings := [] }

/-- The lane of the tasks has a row for each of them, and is higher than the other lane. -/
theorem layout_counts_crowdedFlow : ∃ l, layout crowdedFlow {} "System" = .ok l ∧
    l.Counts crowdedFlow {} ∧
    l.nodes.map (fun p => (p.1.display, p.2.lane, p.2.column, p.2.rank)) =
      [("__start__", "Lane_clerk", 0, 0), ("file", "Lane_clerk", 1, 0),
        ("print", "Lane_system", 3, 0), ("sort", "Lane_system", 2, 0),
        ("send", "Lane_system", 3, 1), ("done", "Lane_system", 4, 0)] ∧
    l.bands.map (fun b => (b.lane.id, b.rows, b.bounds.height)) =
      [("Lane_clerk", 1, 160), ("Lane_system", 2, 280)] := by
  have hkeyed : crowdedFlow.Keyed := by
    constructor
    · simp [crowdedFlow, State.make]
    · decide
  have hattributed : ∀ s ∈ crowdedFlow.nodes, s.Attributed := by
    simp [crowdedFlow, Graph.nodes, State.make, State.Attributed]
  have hvalid : crowdedFlow.validate = .ok [] := by cbv
  have hnodes : (layout crowdedFlow {} "System").toOption.map (fun l =>
      l.nodes.map fun p => (p.1.display, p.2.lane, p.2.column, p.2.rank)) =
      some [("__start__", "Lane_clerk", 0, 0), ("file", "Lane_clerk", 1, 0),
        ("print", "Lane_system", 3, 0), ("sort", "Lane_system", 2, 0),
        ("send", "Lane_system", 3, 1), ("done", "Lane_system", 4, 0)] := by decide +kernel
  have hbands : (layout crowdedFlow {} "System").toOption.map (fun l =>
      l.bands.map fun b => (b.lane.id, b.rows, b.bounds.height)) =
      some [("Lane_clerk", 1, 160), ("Lane_system", 2, 280)] := by decide +kernel
  obtain ⟨hcounts, hexists⟩ := layout_counts hkeyed.ids hkeyed.nodup (by decide) {} "System"
  obtain ⟨l, hl⟩ := (hexists hkeyed _ hvalid).1 hattributed
  rw [hl] at hnodes hbands
  exact ⟨l, hl, hcounts l hl, Option.some.inj hnodes, Option.some.inj hbands⟩

/-- Where two states have the same id, one node takes the entry of the other: the node that is left
    is alone in its cell, but has the rank and the row of a second one. -/
theorem cell_of_sharedFlow :
    (do
      let g ← Bpmn.sharedFlow
      let warnings ← g.validate
      let l ← layout g {} "System"
      return (warnings, (l.cell "Lane_system" 1).map fun n : Node => (n.id.display, n.rank),
        l.bands.map fun b : Band => (b.lane.id, b.rows, b.bounds.height))) =
    .ok ([], [("a", 1)], [("Lane_system", 2, 280)]) := by
  cbv

end Swimlane.Diagram
