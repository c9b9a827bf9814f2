import Swimlane.Proofs.Emission
import Swimlane.Proofs.References

/-!
# The place of the start event

The start event is no state, but it is placed and drawn like one: under a name of its own, in the
first column, which no state can have.  Nodes are stored by their names, so a state that has the
name of the start event takes its entry, and then the start event is drawn where this state is.

## Key results

- `Entered.length_entries`: how many entries there are
- `columns_of_placesOf`: only the start event is in the first column
- `exists_entered`: the nodes of a layout, the one of the start event apart from all others
- `Parts.Of.collect_rectangles`: the rectangles that a document shows are those of the layout
- `start_has_place`: the start event has a place of its own unless a state has its name
-/

namespace Swimlane

/-- Measures of a diagram that leave room for every shape in a cell, whatever the width of the
    head of the lanes. -/
def Geometry.HasRoom (geometry : Geometry) : Prop :=
  ({ geometry with laneHeaderWidth := 0 } : Geometry).Fits

/-- Every key of a graph is the id of a state. -/
theorem Graph.Keyed.exists_state {g : Graph} (h : g.Keyed) {key : String} (hkey : key ∈ g.keys) :
    ∃ s ∈ g.nodes, s.id = .str key := by
  have hmem : .str key ∈ g.nodes.map (·.id) := by
    rw [h.ids]
    exact List.mem_map_of_mem hkey
  exact List.mem_map.mp hmem

namespace Diagram

/-! ## Columns -/

/-- Only the start event is in the first column. -/
theorem columns_of_placesOf {g : Graph} {default : String} {lanes : List Lane}
    {places : List (Placement × Nat)} (h : placesOf g default = .ok (lanes, places)) :
    ∃ start rest, places = start :: rest ∧ start.1.column = 0 ∧ ∀ p ∈ rest, 1 ≤ p.1.column := by
  obtain ⟨_, _, _, placed, _, _, hplaced, rfl⟩ := placesOf_parts h
  refine ⟨_, _, rfl, rfl, fun p hp => ?_⟩
  have hmem := List.mem_map_of_mem (f := (·.1)) hp
  rw [ranked_fst] at hmem
  obtain ⟨s, _, hs⟩ := Except.exists_of_mem_mapM hplaced hmem
  exact (placement_eq_ok hs).2.2.2

/-! ## Entries -/

/-- The nodes of the start event and of the states of a graph, in the order of the states.  Only
    the start event is in the first column. -/
structure Entered (g : Graph) (a : Assignment) (start : Node) (states : List Node) : Prop where
  id : start.id = startNode
  label : start.label = .str startLabel
  lane : some start.lane = Assoc.get? g.start a.2
  members : states.map (fun n => (n.id, n.label, some n.lane)) =
    g.nodes.map fun s => (s.id, s.label, Assoc.get? s.id a.2)
  first : start.column = 0
  later : ∀ n ∈ states, 1 ≤ n.column

/-- The nodes by their names. -/
def entries (start : Node) (states : List Node) : List (Json × Node) :=
  Assoc.ofPairs ((start :: states).map fun n => (n.id, n))

section Entered

variable {g : Graph} {a : Assignment} {start : Node} {states : List Node}

/-- The nodes of states have the keys of the states for names. -/
theorem Entered.ids (h : Entered g a start states) (hk : g.Keyed) :
    states.map (·.id) = g.keys.map .str := by
  have hids := congrArg (List.map (·.1)) h.members
  rw [List.map_map, List.map_map] at hids
  rw [← hk.ids]
  exact hids

/-- The names of all nodes are texts. -/
theorem Entered.entries_eq (h : Entered g a start states) (hk : g.Keyed) :
    entries start states = (Assoc.ofPairs (("__start__", start) ::
      states.map fun n => (n.id.display, n))).map fun p => (.str p.1, p.2) := by
  rw [entries, ← Assoc.ofPairs_map_str, List.map_cons, List.map_cons, h.id,
    (nodes_named (h.ids hk)).1]
  rfl

theorem Entered.keys (h : Entered g a start states) (hk : g.Keyed) :
    (states.map fun n => (n.id.display, n)).map (·.1) = g.keys :=
  (nodes_named (h.ids hk)).2

/-- Every state finds its own node under its id. -/
theorem Entered.get?_state (h : Entered g a start states) (hk : g.Keyed) {s : State}
    (hs : s ∈ g.nodes) : ∃ n ∈ states, Assoc.get? s.id (entries start states) = some n ∧
      n.label = s.label ∧ some n.lane = Assoc.get? s.id a.2 := by
  have hmem := List.mem_map_of_mem (f := fun s => (s.id, s.label, Assoc.get? s.id a.2)) hs
  rw [← h.members] at hmem
  obtain ⟨n, hn, heq⟩ := List.mem_map.mp hmem
  simp only [Prod.mk.injEq] at heq
  obtain ⟨hid, hlabel, hlane⟩ := heq
  refine ⟨n, hn, ?_, hlabel, hlane⟩
  rw [id_eq_display hk hs, h.entries_eq hk, Assoc.get?_str]
  refine Assoc.get?_ofPairs_cons _ (by rw [h.keys hk]; exact hk.nodup) ?_
  exact List.mem_map.mpr ⟨n, hn, by rw [hid]⟩

/-- The start event finds its own node if no state has its name. -/
theorem Entered.get?_start (h : Entered g a start states) (hk : g.Keyed)
    (hs : "__start__" ∉ g.keys) : Assoc.get? startNode (entries start states) = some start := by
  rw [h.entries_eq hk, startNode, Assoc.get?_str, Assoc.ofPairs_eq_self, Assoc.get?]
  · rfl
  · rw [List.map_cons, h.keys hk]
    exact List.nodup_cons.mpr ⟨hs, hk.nodup⟩

/-- The start event is in the lane of the state that the flow starts with. -/
theorem Entered.lane_start (h : Entered g a start states) (hk : g.Keyed) {s : State}
    (hs : s ∈ g.nodes) (hid : s.id = g.start) :
    ∃ n, Assoc.get? g.start (entries start states) = some n ∧ start.lane = n.lane := by
  obtain ⟨n, _, hget, _, hlane⟩ := h.get?_state hk hs
  rw [hid] at hget hlane
  exact ⟨n, hget, Option.some.inj (h.lane.trans hlane.symm)⟩

/-- There is an entry for every state, and one more for the start event if no state has its
    name. -/
theorem Entered.length_entries (h : Entered g a start states) (hk : g.Keyed) :
    ("__start__" ∉ g.keys → (entries start states).length = g.nodes.length + 1) ∧
    ("__start__" ∈ g.keys → (entries start states).length = g.nodes.length) := by
  -- The nodes of states are counted by strings, among which the texts are found again.
  have hlength : states.length = g.nodes.length := by
    have hmembers := congrArg List.length h.members
    rwa [List.length_map, List.length_map] at hmembers
  have hnodup : ((states.map fun n => (n.id.display, n)).map (·.1)).Nodup := by
    rw [h.keys hk]
    exact hk.nodup
  have hpairs := Assoc.length_ofPairs_cons "__start__" start hnodup
  rwa [h.keys hk, List.length_map, hlength,
    ← List.length_map (fun p : String × Node => (Json.str p.1, p.2)), ← h.entries_eq hk] at hpairs

end Entered

/-! ## Drawings -/

section Drawings

variable {geometry : Geometry} {g : Graph} {a : Assignment} {places : List (Placement × Nat)}

/-- A node lies in a cell of a band, and all bands begin at the same place. -/
theorem Placed.exists_cell (h : Placed g a places) (hg : geometry.HasRoom) {nodes : List Node}
    (hn : places.mapM (nodeOf geometry (bandsOf geometry a.1 places)) = .ok nodes) {n : Node}
    (hmem : n ∈ nodes) : ∃ band : Bounds, band.x = geometry.poolX + geometry.laneHeaderWidth ∧
      InCell { geometry with laneHeaderWidth := 0 } band n := by
  obtain ⟨place, hplace, hnode⟩ := Except.exists_of_mem_mapM hn hmem
  obtain ⟨_, _, hlane, _, _⟩ := nodeOf_eq_ok hnode
  have hids := bandsOf_ids geometry a.1 places
  have hband := h.lane place hplace
  rw [← hids, ← hlane] at hband
  obtain ⟨band, hband, hid⟩ := List.mem_map.mp hband
  -- Nodes are measured from their bands, so the head of the lanes does not matter to them.
  have hcell : InCell { geometry with laneHeaderWidth := 0 }
      (bandBounds (bandsOf geometry a.1 places) n.lane) n := inCell_of_nodeOf hg hnode
  rw [← hid, bandBounds_of_mem (by rw [hids]; exact h.lanes) hband] at hcell
  exact ⟨band.bounds, (stack_bands hband).1, hcell⟩

/-- The nodes that are drawn at the places of a graph. -/
theorem Placed.entered (h : Placed g a places) {first : Placement × Nat}
    {rest : List (Placement × Nat)} (hplaces : places = first :: rest)
    (hfirst : first.1.column = 0) (hrest : ∀ p ∈ rest, 1 ≤ p.1.column) {bands : List Band}
    {nodes : List Node} (hn : places.mapM (nodeOf geometry bands) = .ok nodes) :
    ∃ start states, nodes = start :: states ∧ Entered g a start states := by
  have hstates := h.states
  rw [hplaces, List.map_cons, List.cons.injEq] at hstates
  rw [hplaces, List.mapM_cons] at hn
  obtain ⟨start, hstart, hn⟩ := Except.bind_eq_ok.mp hn
  obtain ⟨states, hnodes, hn⟩ := Except.bind_eq_ok.mp hn
  cases hn
  obtain ⟨hid, hlabel, hlane, hcolumn, _⟩ := nodeOf_eq_ok hstart
  simp only [Prod.mk.injEq] at hstates
  obtain ⟨⟨hid', hlabel', hlane'⟩, hlater⟩ := hstates
  refine ⟨start, states, rfl, hid.trans hid', hlabel.trans hlabel', by rw [hlane, hlane'], ?_,
    hcolumn.trans hfirst, fun n hmem => ?_⟩
  · rw [← hlater]
    refine Except.map_eq_of_mapM (fun p _ n hp => ?_) hnodes
    obtain ⟨hid, hlabel, hlane, _⟩ := nodeOf_eq_ok hp
    rw [hid, hlabel, hlane]
  · obtain ⟨p, hp, hnode⟩ := Except.exists_of_mem_mapM hnodes hmem
    obtain ⟨_, _, _, hcolumn, _⟩ := nodeOf_eq_ok hnode
    rw [hcolumn]
    exact hrest p hp

/-- An accepted graph of which texts tell who acts is laid out with a node for the start event,
    apart from the nodes of all states. -/
theorem exists_entered (hk : g.Keyed) {warnings : List String}
    (hv : g.validate = .ok warnings) (ha : ∀ s ∈ g.nodes, s.Attributed)
    (hg : geometry.HasRoom) (default : String) :
    ∃ l a start states, layout g geometry default = .ok l ∧ l.nodes = entries start states ∧
      Entered g a start states ∧ ∀ n ∈ states, start.bounds.Apart n.bounds := by
  obtain ⟨a, places, _, hplaces, hplaced⟩ := exists_placesOf hk hv ha default
  obtain ⟨first, rest, hcons, hfirst, hrest⟩ := columns_of_placesOf hplaces
  have hlabels : ∀ s ∈ g.nodes, (Kind.ofLabel? s.label).isSome = true := fun s hs =>
    (Graph.checkState_eq_ok_iff.mp ((Graph.checked_of_validate hv).2 s hs)).1
  obtain ⟨l, hdraw⟩ := hplaced.exists_draw hlabels geometry
  have hlayout : layout g geometry default = .ok l := by
    rw [layout, hplaces]
    exact Except.mapError_eq_ok.mpr hdraw
  obtain ⟨nodes, hn, hl⟩ := Except.bind_eq_ok.mp hdraw
  have hn : places.mapM (nodeOf geometry (bandsOf geometry a.1 places)) = .ok nodes := hn
  obtain ⟨start, states, rfl, hentered⟩ := hplaced.entered hcons hfirst hrest hn
  cases hl
  refine ⟨_, a, start, states, hlayout, rfl, hentered, fun n hmem => ?_⟩
  obtain ⟨band, hx, hcell⟩ := hplaced.exists_cell hg hn List.mem_cons_self
  obtain ⟨band', hx', hcell'⟩ := hplaced.exists_cell hg hn (List.mem_cons_of_mem _ hmem)
  -- The start event is in a column of its own.
  have hcolumn : start.column ≠ n.column := by
    have hlater := hentered.later n hmem
    rw [hentered.first]
    omega
  exact hcell.apart_of_column hg hcell' (hx.trans hx'.symm) hcolumn

end Drawings

end Diagram

namespace Bpmn

/-! ## Rectangles -/

/-- The rectangle that an element of a document gives with its attributes. -/
def bounds? (x : Xml) : Option Diagram.Bounds := do
  return ⟨← (← x.attribute? "x").toInt?, ← (← x.attribute? "y").toInt?,
    ← (← x.attribute? "width").toInt?, ← (← x.attribute? "height").toInt?⟩

/-- What an element shows and where, if it is a shape. -/
def rectangles (x : Xml) : List (Option String × Option Diagram.Bounds) :=
  if roleOf x.tag = .shape then x.children.map fun c => (x.attribute? "bpmnElement", bounds? c)
  else []

theorem silent_rectangles {words : Xml.Vocabulary} (hw : ∀ w ∈ words, roleOf w.1 ≠ .shape) :
    words.Silent rectangles := by
  intro e he
  obtain ⟨names, hmem, _⟩ := he
  exact if_neg (hw _ hmem)

/-- A number is read back from its text. -/
theorem toInt?_of_numeral {n : Int} {text : String} (h : numeral n = .ok text) :
    text.toInt? = some n := by
  rw [numeral] at h
  split at h
  · cases h
    exact Int.toInt?_repr n
  · cases h

/-- A shape shows its element in its rectangle. -/
theorem collect_rectangles_shape {id : String} {attributes : List (String × String)}
    {b : Diagram.Bounds} {x : Xml} (h : shape id attributes b = .ok x) :
    x.collect rectangles = [(some id, some b)] := by
  have hroles : roleOf "bpmndi:BPMNShape" = .shape ∧ roleOf "dc:Bounds" = .other := by decide
  obtain ⟨bounds, hbounds, h⟩ := Except.bind_eq_ok.mp h
  obtain ⟨left, hleft, hbounds⟩ := Except.bind_eq_ok.mp hbounds
  obtain ⟨top, htop, hbounds⟩ := Except.bind_eq_ok.mp hbounds
  obtain ⟨width, hwidth, hbounds⟩ := Except.bind_eq_ok.mp hbounds
  obtain ⟨height, hheight, hbounds⟩ := Except.bind_eq_ok.mp hbounds
  cases hbounds
  cases h
  simp [rectangles, bounds?, hroles, Xml.attribute?, Assoc.get?, toInt?_of_numeral hleft,
    toInt?_of_numeral htop, toInt?_of_numeral hwidth, toInt?_of_numeral hheight]

/-- Where the pool and the lanes of a layout are. -/
def frames (l : Diagram.Layout) : List (String × Diagram.Bounds) :=
  ("Participant_1", l.pool) :: l.bands.map fun band => (band.lane.id, band.bounds)

/-- Where the start event and the states of a graph are in a layout. -/
def spots (g : Graph) (l : Diagram.Layout) (ids : List (String × String)) :
    List (String × Option Diagram.Bounds) :=
  (startEventId, (Assoc.get? Diagram.startNode l.nodes).map (·.bounds)) ::
    g.nodes.map fun s => (idOf ids s.id, (Assoc.get? s.id l.nodes).map (·.bounds))

/-- The start event and all states are placed where the layout has them. -/
theorem placed_spots {g : Graph} {l : Diagram.Layout} {ids : List (String × String)}
    (hd : Distinct g ids) (hl : Diagram.Drawn g l) :
    (placed l ids).map (fun n => (n.1, some n.2.bounds)) = spots g l ids := by
  have hfound : ∀ names : List (String × Json),
      (∀ x ∈ names, ∃ n, Assoc.get? x.2 l.nodes = some n) →
      (names.filterMap fun x => (Assoc.get? x.2 l.nodes).map (x.1, ·)).map
          (fun n => (n.1, some n.2.bounds)) =
        names.map fun x => (x.1, (Assoc.get? x.2 l.nodes).map (·.bounds)) := by
    intro names hnames
    induction names with
    | nil => rfl
    | cons x rest ih =>
      obtain ⟨n, hn⟩ := hnames x List.mem_cons_self
      have hrest := ih fun y hy => hnames y (List.mem_cons_of_mem _ hy)
      simp [hn, hrest]
  -- The ids are listed in the order of the states.
  have hnames : (ids.map fun q => (q.2, Json.str q.1)) =
      g.nodes.map fun s => (idOf ids s.id, s.id) := by
    have hstates := congrArg (List.map fun id => (idOf ids id, id)) hd.states
    rw [List.map_map, List.map_map] at hstates
    refine (List.map_congr_left fun q hq => ?_).trans hstates.symm
    rw [Function.comp_apply, hd.idOf_key hq]
  refine (hfound ((startEventId, Diagram.startNode) ::
    ids.map fun q => (q.2, .str q.1)) ?_).trans ?_
  · intro x hx
    rcases List.mem_cons.mp hx with rfl | hx
    · exact hl.start.imp fun n hn => hn.1
    · obtain ⟨q, hq, rfl⟩ := List.mem_map.mp hx
      exact hl.node q.1 (by rw [hd.states]; exact List.mem_map.mpr ⟨q, hq, rfl⟩)
  · rw [hnames, List.map_cons, List.map_map]
    rfl

/-- The shapes of a document are those of the pool, of the lanes and of the nodes with elements. -/
theorem Parts.Of.collect_rectangles_placed {p : Parts} {g : Graph} {settings : Settings}
    (h : p.Of g settings) : (p.root g settings).collect rectangles =
      (frames p.layout).map (fun r => (some r.1, some r.2)) ++
        (placed p.layout p.ids).map fun n => (some n.1, some n.2.bounds) := by
  have hbands := Except.flatMap_eq_of_mapM (q := Xml.collect rectangles)
    (fun band _ x hx => collect_rectangles_shape hx) h.bands
  have hshapes := Except.flatMap_eq_of_mapM (q := Xml.collect rectangles)
    (fun node _ x hx => collect_rectangles_shape hx) h.shapes
  have hlines : p.lines.flatMap (Xml.collect rectangles) = [] := by
    have hroles : roleOf "bpmndi:BPMNEdge" = .line ∧ roleOf "di:waypoint" = .other := by decide
    rw [List.flatMap_eq_nil_iff]
    intro x hx
    obtain ⟨f, _, hf⟩ := Except.exists_of_mem_mapM h.lines hx
    obtain ⟨points, rfl⟩ := flowLine_eq_ok hf
    simp [List.flatMap_map, rectangles, hroles]
  rw [← List.map_eq_flatMap] at hbands hshapes
  rw [h.collect_diagram fun words hw =>
    silent_rectangles (roleOf_ne_of_drawn .shape (by simp) words hw)]
  simp only [List.cons_append, List.flatMap_cons, List.flatMap_append, hbands, hshapes, hlines,
    collect_rectangles_shape h.pool, List.nil_append, List.append_nil, frames, List.map_cons,
    List.map_map]
  rfl

/-- The shapes of a document are where the layout has the pool, the lanes, the start event and the
    states. -/
theorem Parts.Of.collect_rectangles {p : Parts} {g : Graph} {settings : Settings}
    (h : p.Of g settings) (hd : Distinct g p.ids) (hl : Diagram.Drawn g p.layout) :
    (p.root g settings).collect rectangles =
      (frames p.layout).map (fun r => (some r.1, some r.2)) ++
        (spots g p.layout p.ids).map fun r => (some r.1, r.2) := by
  rw [h.collect_rectangles_placed, ← placed_spots hd hl, List.map_map]
  rfl

/-- The shapes of the document of a graph that was read are where its layout has them. -/
theorem collect_rectangles_of_loaded {g : Graph} (hg : g.Loaded) {settings : Settings}
    {l : Diagram.Layout} {ids : List (String × String)} {root : Xml}
    (hl : Diagram.layout g settings.geometry settings.defaultLane = .ok l)
    (hids : elementIds g = .ok ids) (hroot : definitions g settings = .ok root) :
    root.collect rectangles = (frames l).map (fun r => (some r.1, some r.2)) ++
      (spots g l ids).map fun r => (some r.1, r.2) := by
  obtain ⟨p, hp, rfl⟩ := parts_of_definitions hroot
  cases hl.symm.trans hp.layout
  cases hids.symm.trans hp.ids
  have hnodup : (g.nodes.map (·.id)).Nodup := by
    rw [hg.ids]
    exact hg.nodup.map fun _ _ heq => Json.str.inj heq
  exact hp.collect_rectangles (distinct_of_elementIds hp.ids hnodup)
    (Diagram.drawn_of_layout hg.ids hl)

/-! ## The start event -/

/-- The start event of a graph that was read has a place of its own unless a state has its name:
    an entry of its own among those of the states, with its own label, in the first column, in the
    lane of the state that the flow starts with, and it shares no point with a state but on the
    edges.  If a state has its name, there is no entry for the start event, and it is drawn where
    this state is.  Every state has its own entry in any case, behind the first column, and
    the shapes of the document are where the entries are.  All this holds if texts tell who acts
    in the states; else there is no layout. -/
theorem start_has_place {d : Json} {g : Graph} (h : Graph.ofJson d = .ok g) (settings : Settings)
    (hg : settings.geometry.HasRoom) :
    ((∃ s ∈ g.nodes, ¬ s.Attributed) →
      Diagram.layout g settings.geometry settings.defaultLane = .error (.misfit .notText)) ∧
    ((∀ s ∈ g.nodes, s.Attributed) → ∃ l start,
      Diagram.layout g settings.geometry settings.defaultLane = .ok l ∧
      Assoc.get? Diagram.startNode l.nodes = some start ∧
      (∀ s ∈ g.nodes, ∃ n, Assoc.get? s.id l.nodes = some n ∧ n.label = s.label ∧ 1 ≤ n.column) ∧
      ("__start__" ∉ g.keys → l.nodes.length = g.nodes.length + 1 ∧
        start.label = .str Diagram.startLabel ∧ start.column = 0 ∧
        (∃ n, Assoc.get? g.start l.nodes = some n ∧ start.lane = n.lane) ∧
        ∀ s ∈ g.nodes, ∀ n, Assoc.get? s.id l.nodes = some n →
          ∀ x y : ℚ, ¬ (start.bounds.Interior x y ∧ n.bounds.Interior x y)) ∧
      ("__start__" ∈ g.keys → l.nodes.length = g.nodes.length ∧
        ∃ s ∈ g.nodes, s.id = Diagram.startNode ∧ start.label = s.label ∧ 1 ≤ start.column) ∧
      ∀ root, definitions g settings = .ok root → ∃ ids, elementIds g = .ok ids ∧
        root.collect rectangles = (frames l).map (fun r => (some r.1, some r.2)) ++
          (spots g l ids).map fun r => (some r.1, r.2)) := by
  have hloaded := Graph.loaded_of_ofJson h
  have hk := hloaded.toKeyed
  refine ⟨fun hnot => Diagram.layout_error hk hnot _ _, fun ha => ?_⟩
  obtain ⟨l, a, node, states, hlayout, hnodes, hentered, hapart⟩ :=
    Diagram.exists_entered hk hloaded.accepted ha hg settings.defaultLane
  obtain ⟨start, hstart, _⟩ := (Diagram.drawn_of_layout hk.ids hlayout).start
  obtain ⟨hmore, hsame⟩ := hentered.length_entries hk
  refine ⟨l, start, hlayout, hstart, ?_⟩
  rw [hnodes] at hstart ⊢
  refine ⟨fun s hs => ?_, fun hfree => ?_, fun hused => ?_, fun root hroot => ?_⟩
  · obtain ⟨n, hn, hget, hlabel, _⟩ := hentered.get?_state hk hs
    exact ⟨n, hget, hlabel, hentered.later n hn⟩
  · -- What is found under the name of the start event is its own node.
    cases hstart.symm.trans (hentered.get?_start hk hfree)
    obtain ⟨⟨key, hmem, hkey⟩, _⟩ := Graph.checked_of_validate hloaded.accepted
    obtain ⟨s, hs, hid⟩ := hk.exists_state hmem
    refine ⟨hmore hfree, hentered.label, hentered.first,
      hentered.lane_start hk hs (hid.trans hkey.symm), fun s hs n hn => ?_⟩
    obtain ⟨m, hm, hget, _⟩ := hentered.get?_state hk hs
    cases hn.symm.trans hget
    exact (hapart n hm).no_interior
  · -- The state with this name was put later, so its node is what is found.
    obtain ⟨s, hs, hid⟩ := hk.exists_state hused
    obtain ⟨n, hn, hget, hlabel, _⟩ := hentered.get?_state hk hs
    rw [hid] at hget
    cases hstart.symm.trans hget
    exact ⟨hsame hused, s, hs, hid, hlabel, hentered.later _ hn⟩
  · obtain ⟨p, hp, _⟩ := parts_of_definitions hroot
    exact ⟨p.ids, hp.ids, collect_rectangles_of_loaded hloaded hlayout hp.ids hroot⟩

/-- A document with a user task, a choice, a task and a stop. -/
def choosingDocument : Json :=
  .obj [("flow", .str "F"), ("start", .str "ask"), ("states", .arr [
    .obj [("id", .str "ask"), ("kind", .str "userTask"), ("prompt", .str "How many?"),
      ("assignee", .str "bob"), ("next", .str "choose")],
    .obj [("id", .str "choose"), ("kind", .str "choice"), ("branches", .arr [
      .obj [("condition", .str "n > 1"), ("next", .str "note")]]), ("otherwise", .str "end")],
    .obj [("id", .str "note"), ("kind", .str "task"), ("action", .str "x"),
      ("next", .str "end")],
    .obj [("id", .str "end"), ("kind", .str "stop")]])]

/-- The start event of this document is apart from its four states, even if the head of the lanes
    has a negative width. -/
theorem start_has_place_choosingDocument :
    let settings : Settings := { geometry := { laneHeaderWidth := -40 } }
    settings.geometry.HasRoom ∧ ∃ g l start, Graph.ofJson choosingDocument = .ok g ∧
      Diagram.layout g settings.geometry settings.defaultLane = .ok l ∧ l.nodes.length = 5 ∧
      Assoc.get? Diagram.startNode l.nodes = some start ∧ start.column = 0 ∧
      ∀ s ∈ g.nodes, ∃ n, Assoc.get? s.id l.nodes = some n ∧ 1 ≤ n.column ∧
        ∀ x y : ℚ, ¬ (start.bounds.Interior x y ∧ n.bounds.Interior x y) := by
  intro settings
  have hroom : settings.geometry.HasRoom := by
    constructor <;> decide
  have hgraph : ((Graph.ofJson choosingDocument).map fun g => (g.keys,
      (Diagram.layout g settings.geometry settings.defaultLane).isOk)).toOption =
      some (["ask", "choose", "note", "end"], true) := by decide +kernel
  obtain ⟨g, hg, hgraph⟩ := Except.map_eq_ok.mp (Except.toOption_eq_some.mp hgraph)
  obtain ⟨hkeys, hok⟩ := Prod.mk.inj hgraph
  obtain ⟨hnot, hplace⟩ := start_has_place hg settings hroom
  have ha : ∀ s ∈ g.nodes, s.Attributed := by
    by_contra hsome
    push Not at hsome
    rw [hnot hsome] at hok
    cases hok
  obtain ⟨l, start, hlayout, hstart, hown, hfree, _⟩ := hplace ha
  have hlength : g.nodes.length = 4 := by
    have hlength := congrArg List.length hkeys
    rwa [Graph.keys, List.length_map, ← List.length_map (·.2)] at hlength
  obtain ⟨hentries, _, hcolumn, _, hapart⟩ := hfree (by rw [hkeys]; decide)
  refine ⟨hroom, g, l, start, hg, hlayout, by rw [hentries, hlength], hstart, hcolumn,
    fun s hs => ?_⟩
  obtain ⟨n, hn, _, hlater⟩ := hown s hs
  exact ⟨n, hn, hlater, hapart s hs n hn⟩

/-- A document with a task that has the name of the start event. -/
def takenDocument : Json :=
  .obj [("flow", .str "F"), ("start", .str "__start__"), ("states", .arr [
    .obj [("id", .str "__start__"), ("kind", .str "task"), ("action", .str "x"),
      ("next", .str "b")],
    .obj [("id", .str "b"), ("kind", .str "stop")]])]

/-- This document has two states and two entries, and its start event is drawn where the task
    is. -/
theorem start_of_takenDocument : ∃ g l root b, Graph.ofJson takenDocument = .ok g ∧
    Diagram.layout g {} "System" = .ok l ∧ definitions g {} = .ok root ∧
    g.nodes.length = 2 ∧ l.nodes.length = 2 ∧
    (some startEventId, some b) ∈ root.collect rectangles ∧
    (some "ST_start", some b) ∈ root.collect rectangles ∧ b.Interior 411 121 := by
  have hrun : ((Graph.ofJson takenDocument).bind fun g => (Diagram.layout g {} "System").bind
      fun l => (elementIds g).bind fun ids => (definitions g {}).map fun _ =>
        (g.nodes.length, l.nodes.length, spots g l ids)).toOption =
      some (2, 2, [(startEventId, some ⟨410, 120, 100, 80⟩),
        ("ST_start", some ⟨410, 120, 100, 80⟩), ("End_b", some ⟨622, 142, 36, 36⟩)]) := by
    decide +kernel
  obtain ⟨g, hg, hrun⟩ := Except.bind_eq_ok.mp (Except.toOption_eq_some.mp hrun)
  obtain ⟨l, hl, hrun⟩ := Except.bind_eq_ok.mp hrun
  obtain ⟨ids, hids, hrun⟩ := Except.bind_eq_ok.mp hrun
  obtain ⟨root, hroot, hrun⟩ := Except.map_eq_ok.mp hrun
  simp only [Prod.mk.injEq] at hrun
  obtain ⟨hstates, hentries, hspots⟩ := hrun
  have hshown := collect_rectangles_of_loaded (Graph.loaded_of_ofJson hg) hl hids hroot
  rw [hspots] at hshown
  refine ⟨g, l, root, ⟨410, 120, 100, 80⟩, hg, hl, hroot, hstates, hentries, ?_, ?_, ?_⟩
  · rw [hshown]
    simp
  · rw [hshown]
    simp
  · norm_num [Diagram.Bounds.Interior, Diagram.Bounds.right, Diagram.Bounds.bottom]

end Bpmn

end Swimlane
