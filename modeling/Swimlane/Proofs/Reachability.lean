import Swimlane.Graph.Reach
import Swimlane.Proofs.Assoc
import Swimlane.Proofs.Search
import Swimlane.Proofs.Textual

/-!
# Searches and paths

A graph is searched in two ways: forwards from its start, and backwards from its stops.  Both
searches keep a list of states to look at next.  Here they are measured against the paths of the
graph: a search meets a state if and only if a path connects them, whatever cycles there are and
in whatever order the backward search takes the stops.

## Key results

- `Keyed.mem_distances_iff`: the forward search meets the states to which a path leads
- `mem_stoppingFrom_iff`: the backward search meets the states from which a path leads to a stop
-/

namespace Swimlane.Graph

/-! ## Paths -/

/-- An edge leads from the state with one id to the other id. -/
def Leads (g : Graph) (a b : String) : Prop := (Json.str a, Json.str b) ∈ g.edges

/-- A path of edges leads from the state with one id to the other id. -/
def Reaches (g : Graph) : String → String → Prop := Relation.ReflTransGen g.Leads

/-- A path leads from the state with an id to a stop. -/
def CanStop (g : Graph) (id : String) : Prop :=
  ∃ s ∈ g.nodes, s.isStop = true ∧ ∃ stop, s.id = .str stop ∧ g.Reaches id stop

/-- An edge is a target of a state. -/
theorem leads_iff {g : Graph} {a b : String} :
    g.Leads a b ↔ ∃ s ∈ g.nodes, s.id = .str a ∧ .str b ∈ s.targets := by
  simp only [Leads, edges, List.mem_flatMap, List.mem_map, Prod.mk.injEq]
  constructor
  · rintro ⟨s, hs, t, ht, hid, rfl⟩
    exact ⟨s, hs, hid, ht⟩
  · rintro ⟨s, hs, hid, ht⟩
    exact ⟨s, hs, _, ht, hid, rfl⟩

/-! ## States under their ids -/

/-- A graph whose states are stored under their ids, each under its own. -/
structure Keyed (g : Graph) : Prop where
  keyed : ∀ p ∈ g.states, p.2.id = .str p.1
  nodup : g.keys.Nodup

/-- What is found in a graph is one of its nodes. -/
theorem mem_nodes_of_find? {g : Graph} {key : String} {s : State} (h : g.find? key = some s) :
    s ∈ g.nodes :=
  List.mem_map.mpr ⟨_, Assoc.mem_of_get? h, rfl⟩

namespace Keyed

variable {g : Graph}

/-- Every state is found under its id. -/
theorem find? (h : g.Keyed) {s : State} (hs : s ∈ g.nodes) :
    ∃ key ∈ g.keys, s.id = .str key ∧ g.find? key = some s := by
  obtain ⟨⟨key, s'⟩, hp, rfl⟩ := List.mem_map.mp hs
  exact ⟨key, List.mem_map.mpr ⟨_, hp, rfl⟩, h.keyed _ hp, Assoc.get?_of_mem h.nodup hp⟩

/-- What is found under a key has it for its id. -/
theorem id_of_find? (h : g.Keyed) {key : String} {s : State} (hf : g.find? key = some s) :
    s.id = .str key :=
  h.keyed _ (Assoc.mem_of_get? hf)

/-- A state is found under every text that is its id. -/
theorem find?_of_id (h : g.Keyed) {s : State} (hs : s ∈ g.nodes) {key : String}
    (hid : s.id = .str key) : g.find? key = some s := by
  obtain ⟨key', _, hid', hf⟩ := h.find? hs
  have heq : key = key' := Json.str.inj (hid.symm.trans hid')
  rw [heq]
  exact hf

/-- The ids of the states are the keys. -/
theorem ids (h : g.Keyed) : g.nodes.map (·.id) = g.keys.map .str := by
  rw [nodes, keys, List.map_map, List.map_map]
  exact List.map_congr_left fun p hp => h.keyed p hp

/-- The ids of the states as texts are the keys. -/
theorem map_display (h : g.Keyed) : g.nodes.map (·.id.display) = g.keys := by
  have hids := congrArg (List.map Json.display) h.ids
  rw [List.map_map, List.map_map] at hids
  exact hids.trans (List.map_id' g.keys)

/-- The id of a state as a text is a key. -/
theorem display_mem_keys (h : g.Keyed) {s : State} (hs : s ∈ g.nodes) :
    s.id.display ∈ g.keys := by
  rw [← h.map_display]
  exact List.mem_map.mpr ⟨s, hs, rfl⟩

/-- The states are stored under their ids as texts. -/
theorem states_eq (h : g.Keyed) : g.nodes.map (fun s => (s.id.display, s)) = g.states := by
  rw [nodes, List.map_map]
  refine (List.map_congr_left fun p hp => ?_).trans (List.map_id g.states)
  rw [Function.comp_apply, h.keyed p hp]
  rfl

end Keyed

/-! ## The forward search -/

/-- The start of a search is met. -/
theorem mem_distances_self {g : Graph} {key : String} (hk : key ∈ g.keys) :
    key ∈ (g.distances key).map (·.1) := by
  rw [distances, if_pos hk]
  exact List.mem_map.mpr ⟨_, Search.mem_breadthFirst_of_mem_queue List.mem_cons_self, rfl⟩

/-- What an edge of a state that is met leads to is met. -/
theorem mem_distances_next {g : Graph} {origin key next : String} {s : State}
    (ho : origin ∈ g.keys) (hk : key ∈ (g.distances origin).map (·.1))
    (hf : g.find? key = some s) (ht : .str next ∈ s.targets) (hn : next ∈ g.keys) :
    next ∈ (g.distances origin).map (·.1) := by
  -- The start is not among the states that the search still has to meet.
  by_cases heq : next = origin
  · rw [heq]; exact mem_distances_self ho
  · rw [distances, if_pos ho] at hk ⊢
    refine Search.mem_breadthFirst_next hk ?_ ((List.mem_erase_of_ne heq).mpr hn)
    rw [successors, hf]
    exact List.mem_filterMap.mpr ⟨_, ht, rfl⟩

/-- A value that can be an id is the text of the id. -/
theorem asId?_eq_some {v : Json} {id : String} : v.asId? = some id ↔ v = .str id := by
  cases v <;> simp [Json.asId?]

/-- The successors of a key are where the edges of its state lead. -/
theorem Keyed.mem_successors_iff {g : Graph} (h : g.Keyed) {a b : String} :
    b ∈ g.successors a ↔ g.Leads a b := by
  rw [leads_iff, successors]
  cases hf : g.find? a with
  | none =>
    constructor
    · intro hb; cases hb
    · rintro ⟨s, hs, hid, _⟩
      rw [h.find?_of_id hs hid] at hf
      cases hf
  | some s =>
    have hmem : b ∈ s.targets.filterMap Json.asId? ↔ Json.str b ∈ s.targets := by
      simp only [List.mem_filterMap, asId?_eq_some, exists_eq_right]
    rw [hmem]
    constructor
    · intro hb
      exact ⟨s, mem_nodes_of_find? hf, h.id_of_find? hf, hb⟩
    · rintro ⟨s', hs', hid, hb⟩
      rw [h.find?_of_id hs' hid] at hf
      cases hf
      exact hb

/-- The forward search meets exactly the states to which a path leads. -/
theorem Keyed.mem_distances_iff {g : Graph} (h : g.Keyed) {origin key : String}
    (ho : origin ∈ g.keys) :
    key ∈ (g.distances origin).map (·.1) ↔ key ∈ g.keys ∧ g.Reaches origin key := by
  constructor
  · intro hk
    rw [distances, if_pos ho] at hk
    obtain ⟨x, hx, hpath⟩ := Search.exists_path_of_mem hk
    rw [List.map_cons, List.map_nil, List.mem_singleton] at hx
    subst hx
    refine ⟨?_, Relation.ReflTransGen.mono (fun a b hab => h.mem_successors_iff.mp hab.1) _ _ hpath⟩
    -- The last state of the path is the start or was taken from the keys.
    cases hpath with
    | refl => exact ho
    | tail _ hstep => exact List.mem_of_mem_erase hstep.2
  · rintro ⟨hk, hpath⟩
    induction hpath with
    | refl => exact mem_distances_self ho
    | tail _ hlead ih =>
      obtain ⟨s, hs, hid, ht⟩ := leads_iff.mp hlead
      have hf := h.find?_of_id hs hid
      have hmem : _ ∈ g.keys := List.mem_map.mpr ⟨_, Assoc.mem_of_get? hf, rfl⟩
      exact mem_distances_next ho (ih hmem) hf ht hk

/-! ## The backward search -/

/-- The ids of states that are texts. -/
theorem mem_idsOf_iff {states : List State} {id : String} :
    id ∈ idsOf states ↔ ∃ s ∈ states, s.id = .str id := by
  simp only [idsOf, List.mem_filterMap, asId?_eq_some]

/-- The states with an edge to an id are those that lead there. -/
theorem mem_idsOf_sources_iff {g : Graph} {a b : String} :
    a ∈ idsOf (g.sources b) ↔ g.Leads a b := by
  simp only [mem_idsOf_iff, leads_iff, sources, List.mem_filter, List.any_eq_true,
    Json.isText_iff, exists_eq_right]
  constructor
  · rintro ⟨s, ⟨hs, ht⟩, hid⟩
    exact ⟨s, hs, hid, ht⟩
  · rintro ⟨s, hs, hid, ht⟩
    exact ⟨s, ⟨hs, ht⟩, hid⟩

/-- The ids of the stops are the ids of states that are stops. -/
theorem mem_stopIds_iff {g : Graph} {id : String} :
    id ∈ g.stopIds ↔ ∃ s ∈ g.nodes, s.isStop = true ∧ s.id = .str id := by
  simp only [stopIds, List.mem_eraseDups, mem_idsOf_iff, List.mem_filter, and_assoc]

/-- The backward search meets exactly the ids from which a path leads to one of the stops that it
    starts with. -/
theorem mem_stoppingFrom_iff {g : Graph} {stops : List String} {id : String} :
    id ∈ g.stoppingFrom stops ↔ ∃ stop ∈ stops, g.Reaches id stop := by
  have hqueue : (stops.map fun stop => (stop, 0)).map (·.1) = stops := by
    simp [Function.comp_def]
  constructor
  · intro hid
    obtain ⟨stop, hstop, hpath⟩ := Search.exists_path_of_mem hid
    rw [hqueue] at hstop
    refine ⟨stop, hstop, ?_⟩
    -- The search follows the edges backwards, so its path is a path of the graph turned round.
    have hback : Relation.ReflTransGen (Function.swap g.Leads) stop id :=
      Relation.ReflTransGen.mono (fun a b hab => mem_idsOf_sources_iff.mp hab.1) _ _ hpath
    exact Relation.reflTransGen_swap.mp hback
  · rintro ⟨stop, hstop, hpath⟩
    -- What is in the queue is met.
    have hmet : ∀ x ∈ stops, x ∈ g.stoppingFrom stops := by
      intro x hx
      have hpair : (x, 0) ∈ stops.map fun stop => (stop, 0) := List.mem_map.mpr ⟨x, hx, rfl⟩
      exact List.mem_map.mpr ⟨_, Search.mem_breadthFirst_of_mem_queue hpair, rfl⟩
    induction hpath using Relation.ReflTransGen.head_induction_on with
    | refl => exact hmet stop hstop
    | @head a c hlead _ ih =>
      by_cases ha : a ∈ stops
      · exact hmet a ha
      · obtain ⟨s, hs, hid, _⟩ := leads_iff.mp hlead
        have hpool : a ∈ (idsOf g.nodes).eraseDups.filter (· ∉ stops) := by
          simp only [List.mem_filter, List.mem_eraseDups, decide_eq_true_eq]
          exact ⟨mem_idsOf_iff.mpr ⟨s, hs, hid⟩, ha⟩
        exact Search.mem_breadthFirst_next ih (mem_idsOf_sources_iff.mpr hlead) hpool

/-- A path leads to a stop from the states that the backward search meets, in whatever order it
    takes the stops. -/
theorem mem_stoppingFrom_iff_canStop {g : Graph} {stops : List String}
    (hstops : stops.Perm g.stopIds) {id : String} :
    id ∈ g.stoppingFrom stops ↔ g.CanStop id := by
  rw [mem_stoppingFrom_iff, CanStop]
  constructor
  · rintro ⟨stop, hstop, hpath⟩
    obtain ⟨s, hs, hisStop, hid⟩ := mem_stopIds_iff.mp (hstops.mem_iff.mp hstop)
    exact ⟨s, hs, hisStop, stop, hid, hpath⟩
  · rintro ⟨s, hs, hisStop, stop, hid, hpath⟩
    exact ⟨stop, hstops.mem_iff.mpr (mem_stopIds_iff.mpr ⟨s, hs, hisStop, hid⟩), hpath⟩

end Swimlane.Graph
