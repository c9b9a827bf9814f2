import Swimlane.Proofs.Drawing

/-!
# What a layout consists of

Whatever graph a layout was made of, its states are spread over lanes with ids of their own, every
state is in one lane, and the start event and every state have a node.  Nothing is asked of the
graph here but that it has been laid out.

## Key results

- `enter_members`: a state enters one lane
- `grouped_of_enterAll`: states are grouped into lanes
- `placesOf_parts`: how places come about
- `drawn_of_layout`: the parts of a layout
-/

namespace Swimlane.Diagram

/-! ## Lanes -/

/-- A state enters one lane, and no lane loses a state. -/
theorem enter_members (name : String) (stateId : Json) (earlier lanes : List Lane) :
    ((enter name stateId earlier lanes).1.flatMap (·.stateIds)).Perm
      (lanes.flatMap (·.stateIds) ++ [stateId]) := by
  induction lanes generalizing earlier with
  | nil => simp [enter]
  | cons lane rest ih =>
    rw [enter]
    split
    · -- The id goes behind those of this lane, in front of those of the other lanes.
      simp only [List.flatMap_cons, List.append_assoc]
      exact List.Perm.append_left _ (List.perm_append_comm)
    · simp only [List.flatMap_cons, List.append_assoc]
      exact List.Perm.append_left _ (ih _)

/-- The id of a new lane tells that it is one. -/
theorem laneId_eq (lanes : List Lane) (name : String) :
    ∃ rest, laneId lanes name = "Lane_" ++ rest := by
  obtain ⟨slug, hslug⟩ : ∃ slug, laneId lanes name =
      Text.fresh ("Lane_" ++ slug) (lanes.map (·.id)) := ⟨_, rfl⟩
  rw [hslug]
  rcases Text.fresh_eq ("Lane_" ++ slug) (lanes.map (·.id)) with heq | ⟨m, heq⟩
  · exact ⟨slug, heq⟩
  · exact ⟨s!"{slug}_{m}", by rw [heq]; simp [toString, String.append_assoc]⟩

/-- States with the given ids are grouped into lanes with ids of their own. -/
structure Grouped (ids : List Json) (a : Assignment) : Prop where
  nodup : (a.1.map (·.id)).Nodup
  named : ∀ id ∈ a.1.map (·.id), ∃ rest, id = "Lane_" ++ rest
  members : (a.1.flatMap (·.stateIds)).Perm ids
  lane : ∀ id ∈ a.2.map (·.2), id ∈ a.1.map (·.id)

theorem grouped_nil : Grouped [] ([], []) :=
  ⟨List.nodup_nil, fun _ h => (nomatch h), List.Perm.nil, fun _ h => nomatch h⟩

/-- One more state joins the group of the lane that it enters. -/
theorem Grouped.enter {ids : List Json} {a : Assignment} (h : Grouped ids a) (name : String)
    (id : Json) :
    Grouped (ids ++ [id]) ((Diagram.enter name id [] a.1).1,
      Assoc.put id (Diagram.enter name id [] a.1).2 a.2) := by
  obtain ⟨hmem, hids⟩ := enter_ids name id [] a.1
  -- Lanes that are there keep their ids.
  have hkept : a.1.map (·.id) ⊆ (Diagram.enter name id [] a.1).1.map (·.id) := by
    rcases hids with hids | hids
    · rw [hids]; exact List.Subset.refl _
    · rw [hids]; exact List.subset_append_left _ _
  constructor
  · rcases hids with hids | hids
    · rw [hids]; exact h.nodup
    · rw [hids, List.nodup_append]
      refine ⟨h.nodup, by simp, fun x hx y hy heq => ?_⟩
      rw [List.mem_singleton, List.nil_append] at hy
      exact Text.fresh_not_mem _ _ (hy ▸ heq ▸ hx)
  · intro lane hlane
    rcases hids with hids | hids
    · exact h.named lane (hids ▸ hlane)
    · rw [hids, List.mem_append, List.mem_singleton] at hlane
      rcases hlane with hlane | rfl
      · exact h.named lane hlane
      · exact laneId_eq _ name
  · exact (enter_members name id [] a.1).trans (h.members.append_right _)
  · intro lane hlane
    rcases Assoc.mem_values_put hlane with rfl | hlane
    · exact hmem
    · exact hkept (h.lane lane hlane)

/-- States that are put into lanes one after the other are grouped. -/
theorem grouped_of_enterAll {known : List String} {default : Json} {states : List State}
    {ids : List Json} {a a' : Assignment} (h : Grouped ids a)
    (he : enterAll known default a states = .ok a') : Grouped (ids ++ states.map (·.id)) a' := by
  induction states generalizing ids a with
  | nil => cases he; simpa using h
  | cons s rest ih =>
    rw [enterAll] at he
    obtain ⟨actor, _, he⟩ := Except.bind_eq_ok.mp he
    cases hname : s.id.isName with
    | false => simp only [hname] at he; cases he
    | true =>
      simp only [hname] at he
      have hmore := ih (h.enter (laneName default actor) s.id) he
      simpa using hmore

theorem grouped_of_assignLanes {g : Graph} {default : Json} {a : Assignment}
    (h : assignLanes g default = .ok a) : Grouped (g.nodes.map (·.id)) a := by
  obtain ⟨actors, _, h⟩ := Except.bind_eq_ok.mp h
  simpa using grouped_of_enterAll grouped_nil h

/-! ## Places -/

/-- A placement is the one of its state, in the lane that the state is assigned to, and not in the
    first column. -/
theorem placement_eq_ok {lanes : List Lane} {assignment : List (Json × String)}
    {columns : List (Json × Nat)} {s : State} {p : Placement}
    (h : placement lanes assignment columns s = .ok p) :
    p.id = s.id ∧ p.lane ∈ lanes.map (·.id) ∧ some p.lane = Assoc.get? s.id assignment ∧
      1 ≤ p.column := by
  simp only [placement] at h
  split at h
  · cases h
  · rename_i l hl
    cases h
    have hlane := List.find?_some hl
    simp only [decide_eq_true_eq] at hlane
    exact ⟨rfl, List.mem_map.mpr ⟨l, List.mem_of_find?_eq_some hl, rfl⟩, hlane.symm,
      Nat.le_add_left 1 _⟩

/-- How the places of a graph come about: the start event stands before the states, in the lane of
    the start. -/
theorem placesOf_parts {g : Graph} {default : String} {lanes : List Lane}
    {places : List (Placement × Nat)} (h : placesOf g default = .ok (lanes, places)) :
    ∃ assignment columns startLane placed, assignLanes g (.str default) = .ok (lanes, assignment) ∧
      Assoc.get? g.start assignment = some startLane ∧
      g.nodes.mapM (placement lanes assignment columns) = .ok placed ∧
      places = ranked [] (⟨startNode, .str startLabel, startLane, 0⟩ :: placed) := by
  rw [placesOf] at h
  obtain ⟨⟨lanes', assignment⟩, hlanes, h⟩ := Except.bind_eq_ok.mp h
  obtain ⟨columns, _, h⟩ := Except.bind_eq_ok.mp h
  split at h
  · cases h
  · rename_i startLane hstart
    obtain ⟨placed, hplaced, h⟩ := Except.bind_eq_ok.mp h
    cases h
    exact ⟨assignment, columns, startLane, placed, Except.mapError_eq_ok.mp hlanes, hstart,
      Except.mapError_eq_ok.mp hplaced, rfl⟩

/-- The places of a graph: one for the start event and one for every state, in the lanes that the
    states are grouped into. -/
theorem placesOf_eq_ok {g : Graph} {default : String} {lanes : List Lane}
    {places : List (Placement × Nat)} (h : placesOf g default = .ok (lanes, places)) :
    (∃ a, assignLanes g (.str default) = .ok a ∧ a.1 = lanes) ∧
    places.map (·.1.id) = startNode :: g.nodes.map (·.id) ∧
    ∀ p ∈ places, p.1.lane ∈ lanes.map (·.id) := by
  obtain ⟨assignment, columns, startLane, placed, hlanes, hstart, hplaced, rfl⟩ := placesOf_parts h
  refine ⟨⟨_, hlanes, rfl⟩, ?_, fun p hp => ?_⟩
  · -- Ranking keeps the placements, and each of them keeps the id of its state.
    have hids : placed.map (·.id) = g.nodes.map (·.id) :=
      Except.map_eq_of_mapM (fun _ _ _ hp => (placement_eq_ok hp).1) hplaced
    have hranked := congrArg (List.map (·.id)) (ranked_fst []
      (⟨startNode, .str startLabel, startLane, 0⟩ :: placed))
    rw [List.map_map, List.map_cons, hids] at hranked
    exact hranked
  · have hmem := List.mem_map_of_mem (f := (·.1)) hp
    rw [ranked_fst] at hmem
    rcases List.mem_cons.mp hmem with heq | hmem
    · rw [heq]
      exact (grouped_of_assignLanes hlanes).lane _ (Assoc.mem_values_of_get? hstart)
    · obtain ⟨s, _, hs⟩ := Except.exists_of_mem_mapM hplaced hmem
      exact (placement_eq_ok hs).2.1

/-! ## Layouts -/

/-- The parts of the layout of a graph.  The texts among the ids of its states have nodes. -/
structure Drawn (g : Graph) (l : Layout) : Prop where
  lanes : (l.bands.map (·.lane.id)).Nodup
  named : ∀ id ∈ l.bands.map (·.lane.id), ∃ rest, id = "Lane_" ++ rest
  members : (l.bands.flatMap (·.lane.stateIds)).Perm (g.nodes.map (·.id))
  start : ∃ n, Assoc.get? startNode l.nodes = some n ∧ n.lane ∈ l.bands.map (·.lane.id)
  node : ∀ key, .str key ∈ g.nodes.map (·.id) → ∃ n, Assoc.get? (.str key) l.nodes = some n

/-- Nodes that are stored under texts are found under them. -/
theorem exists_node {nodes : List Node} {keys : List String} (h : nodes.map (·.id) = keys.map .str)
    {key : String} (hk : key ∈ keys) :
    ∃ n ∈ nodes, Assoc.get? (.str key) (Assoc.ofPairs (nodes.map fun n => (n.id, n))) = some n := by
  obtain ⟨hpairs, hkeys⟩ := nodes_named h
  rw [← hkeys] at hk
  -- Looking them up is looking up strings.
  obtain ⟨n, hn, hpair⟩ := Assoc.exists_get?_ofPairs hk
  obtain ⟨m, hm, heq⟩ := List.mem_map.mp hpair
  cases heq
  exact ⟨n, hm, by rw [hpairs, Assoc.ofPairs_map_str, Assoc.get?_str, hn]⟩

/-- A layout of states with texts for ids has all its parts. -/
theorem drawn_of_layout {g : Graph} {geometry : Geometry} {default : String} {l : Layout}
    {keys : List String} (hkeys : g.nodes.map (·.id) = keys.map .str)
    (h : layout g geometry default = .ok l) : Drawn g l := by
  obtain ⟨⟨lanes, places⟩, hplaces, h⟩ := Except.bind_eq_ok.mp h
  obtain ⟨nodes, hnodes, h⟩ := Except.bind_eq_ok.mp (Except.mapError_eq_ok.mp h)
  obtain ⟨⟨a, hlanes, rfl⟩, hids, hlane⟩ := placesOf_eq_ok hplaces
  have hgrouped := grouped_of_assignLanes hlanes
  have hbandIds := bandsOf_ids geometry a.1 places
  have hnodeIds : nodes.map (·.id) = ("__start__" :: keys).map .str := by
    have hsame : nodes.map (·.id) = places.map (·.1.id) :=
      Except.map_eq_of_mapM (fun _ _ _ hn => (nodeOf_eq_ok hn).1) hnodes
    rw [hsame, hids, hkeys]
    rfl
  cases h
  constructor
  · show ((bandsOf geometry a.1 places).map (·.lane.id)).Nodup
    rw [hbandIds]
    exact hgrouped.nodup
  · show ∀ id ∈ (bandsOf geometry a.1 places).map (·.lane.id), _
    rw [hbandIds]
    exact hgrouped.named
  · show ((bandsOf geometry a.1 places).flatMap (·.lane.stateIds)).Perm _
    have hbands : (bandsOf geometry a.1 places).map (·.lane) = a.1 := stack_lanes
    have hmembers := hgrouped.members
    rw [← hbands, List.flatMap_map] at hmembers
    exact hmembers
  · -- The start event is in the lane of its place.
    obtain ⟨n, hn, hget⟩ := exists_node hnodeIds List.mem_cons_self
    obtain ⟨place, hplace, hnode⟩ := Except.exists_of_mem_mapM hnodes hn
    refine ⟨n, hget, ?_⟩
    show n.lane ∈ (bandsOf geometry a.1 places).map (·.lane.id)
    rw [hbandIds, (nodeOf_eq_ok hnode).2.2.1]
    exact hlane place hplace
  · intro key hkey
    rw [hkeys] at hkey
    obtain ⟨key', hmem, heq⟩ := List.mem_map.mp hkey
    cases heq
    obtain ⟨n, _, hget⟩ := exists_node hnodeIds (List.mem_cons_of_mem _ hmem)
    exact ⟨n, hget⟩

end Swimlane.Diagram
