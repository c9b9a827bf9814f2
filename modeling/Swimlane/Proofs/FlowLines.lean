import Mathlib
import Swimlane.Proofs.Routes
import Swimlane.Proofs.SequenceFlows
import Swimlane.Proofs.StartEvent

/-!
# The lines of sequence flows

The flows of a graph are the one from the start event and those along the edges.  Each has a way in
a layout, from the border of one node to the border of the other, and the document of the graph
draws this way as the line of a sequence flow.

## Key results

- `exists_routes`: the ways of an accepted graph, one for each flow
- `Parts.Of.collect_tracks`: the lines of a document and their points
- `Parts.Of.connects_flow`: a line goes from the shape of its source to the shape of its target
- `routes_connect`: all ways connect their nodes within the pool
-/

namespace Swimlane

/-- Measures that leave room for shapes and for the head of the lanes leave room for shapes. -/
theorem Geometry.Fits.hasRoom {geometry : Geometry} (h : geometry.Fits) : geometry.HasRoom :=
  { h with header := Int.le_refl 0 }

namespace Diagram

/-! ## Ways of a graph -/

/-- The edges of an accepted graph can be listed, and lead to keys. -/
theorem edges_of_validate {g : Graph} {warnings : List String} (h : g.validate = .ok warnings) :
    g.edgeMisfit? = none ∧ ∀ e ∈ flowEnds g, ∃ key ∈ g.keys, e.2 = .str key := by
  obtain ⟨hstart, hstates⟩ := Graph.checked_of_validate h
  have hchecked := fun s hs => Graph.checkState_eq_ok_iff.mp (hstates s hs)
  refine ⟨List.findSome?_eq_none_iff.mpr fun s hs => (hchecked s hs).2.2.1, fun e he => ?_⟩
  rcases List.mem_cons.mp he with rfl | he
  · obtain ⟨key, hkey, heq⟩ := hstart
    exact ⟨key, hkey, heq⟩
  · obtain ⟨s, hs, he⟩ := List.mem_flatMap.mp he
    obtain ⟨t, ht, rfl⟩ := List.mem_map.mp he
    exact (hchecked s hs).2.2.2 t ht

/-- The flows of a graph leave the start event or a state. -/
theorem source_of_flowEnds {g : Graph} {e : Json × Json} (he : e ∈ flowEnds g) :
    e.1 = startNode ∨ e.1 ∈ g.nodes.map (·.id) := by
  rcases List.mem_cons.mp he with rfl | he
  · exact Or.inl rfl
  · obtain ⟨s, hs, he⟩ := List.mem_flatMap.mp he
    obtain ⟨t, _, rfl⟩ := List.mem_map.mp he
    exact Or.inr (List.mem_map_of_mem hs)

/-- Both ends of a flow of an accepted graph have nodes in a layout. -/
theorem nodes_of_flowEnds {g : Graph} (hk : g.Keyed) {warnings : List String}
    (hv : g.validate = .ok warnings) {l : Layout} (hl : Drawn g l) {e : Json × Json}
    (he : e ∈ flowEnds g) :
    ∃ s t, Assoc.get? e.1 l.nodes = some s ∧ Assoc.get? e.2 l.nodes = some t := by
  have hnode : ∀ key ∈ g.keys, ∃ n, Assoc.get? (.str key) l.nodes = some n := fun key hkey =>
    hl.node key (by rw [hk.ids]; exact List.mem_map_of_mem hkey)
  obtain ⟨key, hkey, htarget⟩ := (edges_of_validate hv).2 e he
  obtain ⟨t, ht⟩ := hnode key hkey
  have hsource : ∃ s, Assoc.get? e.1 l.nodes = some s := by
    rcases source_of_flowEnds he with hstart | hstate
    · rw [hstart]
      exact hl.start.imp fun n hn => hn.1
    · rw [hk.ids] at hstate
      obtain ⟨key', hkey', heq⟩ := List.mem_map.mp hstate
      rw [← heq]
      exact hnode key' hkey'
  exact hsource.imp fun s hs => ⟨t, hs, by rw [htarget]; exact ht⟩

/-- A way is found if both its ends have nodes, and is the one between these. -/
theorem Layout.route?_eq_some_iff {l : Layout} {source target : Json} {w : Route} :
    l.route? source target = some w ↔ ∃ s t, Assoc.get? source l.nodes = some s ∧
      Assoc.get? target l.nodes = some t ∧ w = ⟨source, target, route s t⟩ := by
  simp only [Layout.route?, Option.bind_eq_bind, Option.bind_eq_some_iff, Option.pure_def,
    Option.some.injEq, exists_and_left, @eq_comm _ w]

/-- In a layout of an accepted graph there is one way for each flow, between the nodes of its
    ends. -/
theorem exists_routes {g : Graph} (hk : g.Keyed) {warnings : List String}
    (hv : g.validate = .ok warnings) {l : Layout} (hl : Drawn g l) :
    ∃ ways, l.routes g = .ok ways ∧ ways.map (fun w => (w.source, w.target)) = flowEnds g ∧
      ∀ w ∈ ways, ∃ s t, Assoc.get? w.source l.nodes = some s ∧
        Assoc.get? w.target l.nodes = some t ∧ w.points = route s t := by
  obtain ⟨hlisted, htargets⟩ := edges_of_validate hv
  have hnames : g.edges.all (·.2.isName) = true := by
    refine List.all_eq_true.mpr fun e he => ?_
    obtain ⟨key, _, heq⟩ := htargets e (List.mem_cons_of_mem _ he)
    rw [heq]
    rfl
  have hroutes : l.routes g = .ok ((flowEnds g).filterMap fun e => l.route? e.1 e.2) := by
    rw [Layout.routes, hlisted, hnames]
    rfl
  refine ⟨_, hroutes, ?_, fun w hw => ?_⟩
  · have hall : ∀ e ∈ flowEnds g,
        (l.route? e.1 e.2).map (fun w => (w.source, w.target)) = some e := by
      intro e he
      obtain ⟨s, t, hs, ht⟩ := nodes_of_flowEnds hk hv hl he
      rw [Layout.route?_eq_some_iff.mpr ⟨s, t, hs, ht, rfl⟩]
      rfl
    rw [List.map_filterMap, List.filterMap_congr hall, List.filterMap_some]
  · obtain ⟨e, _, hw⟩ := List.mem_filterMap.mp hw
    obtain ⟨s, t, hs, ht, rfl⟩ := Layout.route?_eq_some_iff.mp hw
    exact ⟨s, t, hs, ht, rfl⟩

end Diagram

namespace Bpmn

/-! ## Nodes with elements -/

/-- The states of a graph with element ids have texts for ids, and every one of them has an
    element. -/
theorem keys_of_elementIds {g : Graph} {ids : List (String × String)}
    (h : elementIds g = .ok ids) : ∃ keys : List String, g.nodes.map (·.id) = keys.map .str ∧
      (∀ q ∈ ids, q.1 ∈ keys) ∧ ∀ key ∈ keys, ∃ id, Assoc.get? key ids = some id := by
  obtain ⟨pairs, hpairs, h⟩ := Except.bind_eq_ok.mp h
  cases h
  obtain ⟨hstates, _⟩ := elementIdsFrom_eq_ok hpairs
  refine ⟨pairs.map (·.1), by rw [hstates, List.map_map]; rfl, fun q hq => ?_, fun key hkey => ?_⟩
  · obtain ⟨id, hid⟩ := Assoc.exists_get? (List.mem_map_of_mem (f := (·.1)) hq)
    rw [Assoc.get?_ofPairs] at hid
    exact List.mem_map_of_mem (f := (·.1)) (List.mem_reverse.mp (Assoc.mem_of_get? hid))
  · obtain ⟨id, hid, _⟩ := Assoc.exists_get?_ofPairs hkey
    exact ⟨id, hid⟩

section Parts

variable {p : Parts} {g : Graph} {settings : Settings}

/-- The start event and the elements of states have nodes of the layout. -/
theorem Parts.Of.exists_placed (h : p.Of g settings) {id : String}
    (hid : id ∈ startEventId :: p.ids.map (·.2)) :
    ∃ n name, Assoc.get? id (placed p.layout p.ids) = some n ∧
      Assoc.get? name p.layout.nodes = some n := by
  obtain ⟨keys, hkeys, hnamed, _⟩ := keys_of_elementIds h.ids
  have hdrawn := Diagram.drawn_of_layout hkeys h.layout
  have hlisted : ∃ name n, (id, name) ∈ (startEventId, Diagram.startNode) ::
      p.ids.map (fun q => (q.2, .str q.1)) ∧ Assoc.get? name p.layout.nodes = some n := by
    rcases List.mem_cons.mp hid with rfl | hid
    · obtain ⟨n, hn, _⟩ := hdrawn.start
      exact ⟨_, n, List.mem_cons_self, hn⟩
    · obtain ⟨q, hq, rfl⟩ := List.mem_map.mp hid
      obtain ⟨n, hn⟩ := hdrawn.node q.1 (by rw [hkeys]; exact List.mem_map_of_mem (hnamed q hq))
      exact ⟨_, n, List.mem_cons_of_mem _ (List.mem_map.mpr ⟨q, hq, rfl⟩), hn⟩
  obtain ⟨name, n, hmem, hn⟩ := hlisted
  have hplaced : (id, n) ∈ placed p.layout p.ids :=
    List.mem_filterMap.mpr ⟨(id, name), hmem, by simp [hn]⟩
  -- Some entry is found under the id, and all entries are nodes of the layout.
  obtain ⟨m, hm⟩ := Assoc.exists_get? (List.mem_map_of_mem (f := (·.1)) hplaced)
  obtain ⟨r, _, hr⟩ := List.mem_filterMap.mp (Assoc.mem_of_get? hm)
  obtain ⟨m', hm', heq⟩ := Option.map_eq_some_iff.mp hr
  cases heq
  exact ⟨_, r.2, hm, hm'⟩

/-- The ends of sequence flows are elements of nodes. -/
theorem Parts.Of.ends_of_flow (h : p.Of g settings) {f : SequenceFlow} (hf : f ∈ p.flows) :
    f.source ∈ startEventId :: p.ids.map (·.2) ∧ f.target ∈ startEventId :: p.ids.map (·.2) := by
  refine ⟨?_, List.mem_cons_of_mem _ (target_of_flows h.flows hf)⟩
  rcases List.mem_cons.mp (source_of_flows h.flows hf) with hstart | hstate
  · rw [hstart]
    exact List.mem_cons_self
  · obtain ⟨s, hs, heq⟩ := List.mem_map.mp hstate
    obtain ⟨keys, hkeys, _, hfound⟩ := keys_of_elementIds h.ids
    have hmem := List.mem_map_of_mem (f := (·.id)) hs
    rw [hkeys] at hmem
    obtain ⟨key, hkey, hid⟩ := List.mem_map.mp hmem
    obtain ⟨id, hget⟩ := hfound key hkey
    refine List.mem_cons_of_mem _ ?_
    rw [← heq, idOf, ← hid, Json.display, hget]
    exact Assoc.mem_values_of_get? hget

/-! ## Lines -/

/-- The point that an element of a document gives with its attributes. -/
def point? (x : Xml) : Option Diagram.Point := do
  return ⟨← (← x.attribute? "x").toInt?, ← (← x.attribute? "y").toInt?⟩

/-- What an element shows and through which points it goes, if it is a line. -/
def tracks (x : Xml) : List (Option String × List (Option Diagram.Point)) :=
  if roleOf x.tag = .line then [(x.attribute? "bpmnElement", x.children.map point?)] else []

theorem silent_tracks {words : Xml.Vocabulary} (hw : ∀ w ∈ words, roleOf w.1 ≠ .line) :
    words.Silent tracks := by
  intro e he
  obtain ⟨names, hmem, _⟩ := he
  exact if_neg (hw _ hmem)

/-- A point is read back from its element, which is no line. -/
theorem point?_waypoint {q : Diagram.Point} {x : Xml} (h : waypoint q = .ok x) :
    point? x = some q ∧ x.collect tracks = [] := by
  have hrole : roleOf "di:waypoint" = .other := by decide
  obtain ⟨left, hleft, h⟩ := Except.bind_eq_ok.mp h
  obtain ⟨top, htop, h⟩ := Except.bind_eq_ok.mp h
  cases h
  constructor
  · simp [point?, Xml.attribute?, Xml.attributes, Assoc.get?, toInt?_of_numeral hleft,
      toInt?_of_numeral htop]
  · simp [tracks, Xml.tag, hrole]

/-- A line shows its flow, and goes through the points of its way. -/
theorem collect_tracks_flowLine {nodes : List (String × Diagram.Node)} {f : SequenceFlow} {x : Xml}
    (h : flowLine nodes f = .ok x) :
    x.collect tracks = [(some f.id, (flowRoute nodes f).map some)] := by
  have hrole : roleOf "bpmndi:BPMNEdge" = .line := by decide
  obtain ⟨points, hpoints, h⟩ := Except.bind_eq_ok.mp h
  cases h
  have hread : points.map point? = (flowRoute nodes f).map some :=
    Except.map_eq_of_mapM (fun q _ y hy => (point?_waypoint hy).1) hpoints
  have hsilent : points.flatMap (Xml.collect tracks) = [] := by
    refine List.flatMap_eq_nil_iff.mpr fun y hy => ?_
    obtain ⟨q, _, hq⟩ := Except.exists_of_mem_mapM hpoints hy
    exact (point?_waypoint hq).2
  simp [tracks, hrole, Xml.attribute?, Assoc.get?, hsilent, hread]

/-- The lines of a document show its sequence flows, in their order. -/
theorem Parts.Of.collect_tracks (h : p.Of g settings) : (p.root g settings).collect tracks =
    p.flows.map fun f => (some f.id, (flowRoute (placed p.layout p.ids) f).map some) := by
  have hlines := Except.flatMap_eq_of_mapM (q := Xml.collect tracks)
    (fun f _ x hx => collect_tracks_flowLine hx) h.lines
  have hshape : ∀ {id attributes b x}, shape id attributes b = .ok x → x.collect tracks = [] := by
    intro id attributes b x hx
    have hroles : roleOf "bpmndi:BPMNShape" = .shape ∧ roleOf "dc:Bounds" = .other := by decide
    obtain ⟨left, top, width, height, rfl⟩ := shape_eq_ok hx
    simp [tracks, hroles]
  have hbands : p.bands.flatMap (Xml.collect tracks) = [] := by
    refine List.flatMap_eq_nil_iff.mpr fun x hx => ?_
    obtain ⟨band, _, hband⟩ := Except.exists_of_mem_mapM h.bands hx
    exact hshape hband
  have hshapes : p.shapes.flatMap (Xml.collect tracks) = [] := by
    refine List.flatMap_eq_nil_iff.mpr fun x hx => ?_
    obtain ⟨node, _, hnode⟩ := Except.exists_of_mem_mapM h.shapes hx
    exact hshape hnode
  rw [← List.map_eq_flatMap] at hlines
  rw [h.collect_diagram fun words hw => silent_tracks (roleOf_ne_of_drawn .line (by simp) words hw)]
  simp only [List.cons_append, List.flatMap_cons, List.flatMap_append, hbands, hshapes, hlines,
    hshape h.pool, List.nil_append]

/-- There is one line for a sequence flow. -/
theorem Parts.Of.mem_tracks_iff (h : p.Of g settings) {f : SequenceFlow} (hf : f ∈ p.flows)
    (points : List (Option Diagram.Point)) :
    (some f.id, points) ∈ (p.root g settings).collect tracks ↔
      points = (flowRoute (placed p.layout p.ids) f).map some := by
  rw [h.collect_tracks]
  constructor
  · intro hmem
    obtain ⟨f', hf', heq⟩ := List.mem_map.mp hmem
    obtain ⟨hid, hpoints⟩ := Prod.mk.inj heq
    -- The ids of flows are distinct, so a line with this id is the line of this flow.
    have hsame := List.inj_on_of_nodup_map (isFamily_flows h.flows).1 hf' hf
      (Option.some.inj hid)
    rw [← hpoints, hsame]
  · intro heq
    rw [heq]
    exact List.mem_map_of_mem (f := fun f : SequenceFlow =>
      (some f.id, (flowRoute (placed p.layout p.ids) f).map some)) hf

/-- The points of a sequence flow connect the shape of its source with the shape of its target,
    within the pool. -/
theorem Parts.Of.connects_flow (h : p.Of g settings) (hg : settings.geometry.Fits)
    {f : SequenceFlow} (hf : f ∈ p.flows) :
    ∃ s t, (some f.source, some s) ∈ (p.root g settings).collect rectangles ∧
      (some f.target, some t) ∈ (p.root g settings).collect rectangles ∧
      Diagram.Connects p.layout.pool s t (flowRoute (placed p.layout p.ids) f) := by
  obtain ⟨hsource, htarget⟩ := h.ends_of_flow hf
  obtain ⟨s, name, hs, hname⟩ := h.exists_placed hsource
  obtain ⟨t, name', ht, hname'⟩ := h.exists_placed htarget
  have hshape : ∀ {id n}, Assoc.get? id (placed p.layout p.ids) = some n →
      (some id, some n.bounds) ∈ (p.root g settings).collect rectangles := by
    intro id n hn
    rw [h.collect_rectangles_placed]
    exact List.mem_append_right _ (List.mem_map.mpr ⟨(id, n), Assoc.mem_of_get? hn, rfl⟩)
  refine ⟨s.bounds, t.bounds, hshape hs, hshape ht, ?_⟩
  rw [flowRoute, hs, ht]
  exact Diagram.connects_route hg h.layout hname hname'

/-- The element of a sequence flow tells its id and its ends. -/
theorem Parts.Of.flow_of_element (h : p.Of g settings) {x : Xml}
    (hx : x ∈ (p.root g settings).elements) (htag : x.tag = "bpmn:sequenceFlow") :
    ∃ f ∈ p.flows, x.attribute? "id" = some f.id ∧ x.attribute? "sourceRef" = some f.source ∧
      x.attribute? "targetRef" = some f.target := by
  have hmem : (x.attributes, x.children.map fun c => (c.tag, c.content)) ∈
      (p.root g settings).collect flowEntry :=
    List.mem_flatMap.mpr ⟨x, hx, by simp [flowEntry, htag]⟩
  rw [h.collect_flowEntry] at hmem
  obtain ⟨f, hf, heq⟩ := List.mem_map.mp hmem
  have hattributes := (Prod.mk.inj heq).1
  refine ⟨f, hf, ?_⟩
  simp [Xml.attribute?, ← hattributes, Assoc.get?]

end Parts

/-- The flows of an accepted graph in which no state has the name of the start event, drawn with
    measures that leave room for every shape.  Whatever nodes a flow leads from and to in a layout,
    its way connects them within the pool.  If texts tell who acts in the states, there is a
    layout, in which the start event and every state have nodes of their own, and there is one way
    for each flow.  And every sequence flow of a document has one line, which connects the shapes
    of its source and of its target within the pool. -/
theorem routes_connect {g : Graph} {warnings : List String} (hv : g.validate = .ok warnings)
    (hfree : Diagram.startNode ∉ g.nodes.map (·.id)) {settings : Settings}
    (hg : settings.geometry.Fits) :
    (∀ l, Diagram.layout g settings.geometry settings.defaultLane = .ok l →
      ∀ e ∈ Diagram.flowEnds g, ∀ s t, Assoc.get? e.1 l.nodes = some s →
        Assoc.get? e.2 l.nodes = some t →
        Diagram.Connects l.pool s.bounds t.bounds (Diagram.route s t)) ∧
    (g.Keyed → (∃ s ∈ g.nodes, ¬ s.Attributed) →
      Diagram.layout g settings.geometry settings.defaultLane = .error (.misfit .notText)) ∧
    (g.Keyed → (∀ s ∈ g.nodes, s.Attributed) → ∃ l start ways,
      Diagram.layout g settings.geometry settings.defaultLane = .ok l ∧
      Assoc.get? Diagram.startNode l.nodes = some start ∧
      start.label = .str Diagram.startLabel ∧
      (∀ s ∈ g.nodes, ∃ n, Assoc.get? s.id l.nodes = some n ∧ n.label = s.label) ∧
      l.routes g = .ok ways ∧
      ways.map (fun w => (w.source, w.target)) = Diagram.flowEnds g ∧
      ∀ w ∈ ways, ∃ s t, Assoc.get? w.source l.nodes = some s ∧
        Assoc.get? w.target l.nodes = some t ∧
        Diagram.Connects l.pool s.bounds t.bounds w.points) ∧
    (∀ root, definitions g settings = .ok root → ∃ pool,
      (some "Participant_1", some pool) ∈ root.collect rectangles ∧
      ∀ x ∈ root.elements, x.tag = "bpmn:sequenceFlow" → ∃ id source target points s t,
        x.attribute? "id" = some id ∧ x.attribute? "sourceRef" = some source ∧
        x.attribute? "targetRef" = some target ∧
        (∀ track, (some id, track) ∈ root.collect tracks ↔ track = points.map some) ∧
        (some source, some s) ∈ root.collect rectangles ∧
        (some target, some t) ∈ root.collect rectangles ∧
        Diagram.Connects pool s t points) := by
  refine ⟨fun l hl e _ s t hs ht => Diagram.connects_route hg hl hs ht,
    fun hk hnot => Diagram.layout_error hk hnot _ _, fun hk ha => ?_, fun root hroot => ?_⟩
  · obtain ⟨l, a, start, states, hl, hnodes, hentered, _⟩ :=
      Diagram.exists_entered hk hv ha hg.hasRoom settings.defaultLane
    obtain ⟨ways, hways, hends, hpoints⟩ :=
      Diagram.exists_routes hk hv (Diagram.drawn_of_layout hk.ids hl)
    have hkeys : "__start__" ∉ g.keys := by
      rw [hk.ids] at hfree
      exact fun hmem => hfree (List.mem_map_of_mem hmem)
    refine ⟨l, start, ways, hl, ?_, hentered.label, fun s hs => ?_, hways, hends, fun w hw => ?_⟩
    · rw [hnodes]
      exact hentered.get?_start hk hkeys
    · obtain ⟨n, _, hn, hlabel, _⟩ := hentered.get?_state hk hs
      exact ⟨n, by rw [hnodes]; exact hn, hlabel⟩
    · obtain ⟨s, t, hs, ht, heq⟩ := hpoints w hw
      refine ⟨s, t, hs, ht, ?_⟩
      rw [heq]
      exact Diagram.connects_route hg hl hs ht
  · -- A document places shapes by element ids, so its lines are followed from these.
    obtain ⟨p, hp, rfl⟩ := parts_of_definitions hroot
    refine ⟨p.layout.pool, ?_, fun x hx htag => ?_⟩
    · rw [hp.collect_rectangles_placed, frames]
      exact List.mem_append_left _ List.mem_cons_self
    · obtain ⟨f, hf, hid, hsource, htarget⟩ := hp.flow_of_element hx htag
      obtain ⟨s, t, hs, ht, hconnects⟩ := hp.connects_flow hg hf
      exact ⟨f.id, f.source, f.target, _, s, t, hid, hsource, htarget, hp.mem_tracks_iff hf, hs, ht,
        hconnects⟩

/-- A flow with edges of all directions: forth and back, to the state itself, and down within a
    column. -/
def restlessFlow : Graph :=
  { name := "F"
    start := .str "ask"
    states := [
      ("ask", State.make "ask" (.userTask (.str "How many?") (.str "bob") .none) (.str "pick")),
      ("pick", State.make "pick" (.choice (.list [⟨.str "again", .str "pick"⟩,
        ⟨.str "other", .str "ask"⟩, ⟨.str "many", .str "note"⟩]) (.str "end")) .null),
      ("note", State.make "note" (.task (.str "x")) (.str "end")),
      ("end", State.make "end" (.stop (.str "")) .null)]
    warnings := [] }

theorem validate_restlessFlow : restlessFlow.validate = .ok [] := by cbv

theorem definitions_restlessFlow : ∃ root, definitions restlessFlow {} = .ok root := by
  have hmade : (definitions restlessFlow {}).isOk = true := by decide +kernel
  cases hroot : definitions restlessFlow {} with
  | ok root => exact ⟨root, rfl⟩
  | error failure => rw [hroot] at hmade; cases hmade

/-- The seven flows of this graph have ways that connect their nodes, also on the way back to the
    same node. -/
theorem routes_connect_restlessFlow : restlessFlow.validate = .ok [] ∧
    ({} : Settings).geometry.Fits ∧ ∃ l ways, Diagram.layout restlessFlow {} "System" = .ok l ∧
      l.routes restlessFlow = .ok ways ∧ ways.length = 7 ∧
      (∃ w ∈ ways, ∃ s, w.source = .str "pick" ∧ w.target = .str "pick" ∧
        Assoc.get? (.str "pick") l.nodes = some s ∧
        Diagram.Connects l.pool s.bounds s.bounds w.points) ∧
      ∃ root pool, definitions restlessFlow {} = .ok root ∧
        (some "Participant_1", some pool) ∈ root.collect rectangles := by
  have hkeyed : restlessFlow.Keyed := by
    constructor
    · simp [restlessFlow, State.make]
    · decide
  have ha : ∀ s ∈ restlessFlow.nodes, s.Attributed := by
    simp [restlessFlow, Graph.nodes, State.make, State.Attributed]
  have hfree : Diagram.startNode ∉ restlessFlow.nodes.map (·.id) := by
    simp [restlessFlow, Graph.nodes, State.make, Diagram.startNode]
  have hfits : ({} : Settings).geometry.Fits := Geometry.fits_default
  obtain ⟨_, _, hways, hdocument⟩ := routes_connect validate_restlessFlow hfree hfits
  obtain ⟨l, _, ways, hl, _, _, _, hroutes, hends, hconnect⟩ := hways hkeyed ha
  have hflows : Diagram.flowEnds restlessFlow = [("__start__", "ask"), ("ask", "pick"),
      ("pick", "pick"), ("pick", "ask"), ("pick", "note"), ("pick", "end"), ("note", "end")].map
        fun e => (.str e.1, .str e.2) := rfl
  rw [hflows] at hends
  refine ⟨validate_restlessFlow, hfits, l, ways, hl, hroutes, ?_, ?_, ?_⟩
  · have hlength := congrArg List.length hends
    simpa using hlength
  · have hmem : (.str "pick", .str "pick") ∈ ways.map fun w => (w.source, w.target) := by
      rw [hends]
      simp
    obtain ⟨w, hw, heq⟩ := List.mem_map.mp hmem
    obtain ⟨hsource, htarget⟩ := Prod.mk.inj heq
    obtain ⟨s, t, hs, ht, hc⟩ := hconnect w hw
    rw [hsource] at hs
    rw [htarget] at ht
    cases hs.symm.trans ht
    exact ⟨w, hw, s, hsource, htarget, hs, hc⟩
  · obtain ⟨root, hroot⟩ := definitions_restlessFlow
    obtain ⟨pool, hpool, _⟩ := hdocument root hroot
    exact ⟨root, pool, hroot, hpool⟩

end Bpmn

end Swimlane
