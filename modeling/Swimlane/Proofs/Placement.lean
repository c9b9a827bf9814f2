import Swimlane.Diagram.Layout
import Swimlane.Proofs.FreshNames
import Swimlane.Proofs.Validation

/-!
# Places in a diagram

Before anything is measured, every state gets a lane by who acts in it, a column by its distance
from the start, and a rank among the states of its lane and column.  All that can go wrong for a
graph that was accepted is a value in the place of the text that tells who acts.

## Key results

- `exists_assignLanes`: states have lanes with ids of their own if texts tell who acts in them
- `assignLanes_error`: else the lanes are refused
- `pairwise_ranked`: nodes of one lane and column have different ranks
- `exists_placesOf`: the places of the start event and of the states
-/

namespace Swimlane

/-- Who acts in a state is told by a text: whom a user task asks, or what a task does. -/
def State.Attributed (s : State) : Prop :=
  match s.body with
  | .userTask _ assignee _ => ∃ name, assignee = .str name
  | .task action => ∃ text, action = .str text
  | _ => True

namespace Diagram

/-! ## Who acts -/

/-- A value that is no text cannot be used as one. -/
theorem asText_error {v : Json} (h : ¬ ∃ s, v = .str s) : v.asText = .error .notText := by
  cases v with
  | str s => exact absurd ⟨s, rfl⟩ h
  | _ => rfl

/-- Who is asked in states can be told, or a value is no text. -/
theorem askedActors_cases (states : List State) :
    (∃ actors, askedActors states = .ok actors) ∨ askedActors states = .error .notText := by
  induction states with
  | nil => exact Or.inl ⟨[], rfl⟩
  | cons s rest ih =>
    cases hb : s.body with
    | userTask prompt assignee form =>
      simp only [askedActors, hb]
      -- An assignee that is not given is passed over.
      split
      · by_cases hs : ∃ name, assignee = .str name
        · obtain ⟨name, rfl⟩ := hs
          rcases ih with ⟨actors, hrest⟩ | hrest
          · exact Or.inl ⟨_, Except.bind_eq_ok.mpr ⟨_, rfl, Except.bind_eq_ok.mpr ⟨_, hrest, rfl⟩⟩⟩
          · right
            rw [hrest]
            rfl
        · right
          rw [asText_error hs]
          rfl
      · exact ih
    | _ => simpa only [askedActors, hb] using ih

/-- Who is asked in states can be told if texts tell it. -/
theorem exists_askedActors {states : List State} (h : ∀ s ∈ states, s.Attributed) :
    ∃ actors, askedActors states = .ok actors := by
  induction states with
  | nil => exact ⟨[], rfl⟩
  | cons s rest ih =>
    obtain ⟨actors, hrest⟩ := ih fun t ht => h t (List.mem_cons_of_mem _ ht)
    have hs := h s List.mem_cons_self
    cases hb : s.body with
    | userTask prompt assignee form =>
      rw [State.Attributed, hb] at hs
      obtain ⟨name, rfl⟩ := hs
      simp only [askedActors, hb]
      split
      · exact ⟨_, Except.bind_eq_ok.mpr ⟨_, rfl, Except.bind_eq_ok.mpr ⟨_, hrest, rfl⟩⟩⟩
      · exact ⟨actors, hrest⟩
    | _ => exact ⟨actors, by simp only [askedActors, hb, hrest]⟩

/-- Who acts in a state can be told if a text tells it. -/
theorem exists_actorOf {s : State} (h : s.Attributed) (known : List String) (default : String) :
    ∃ actor, actorOf known (.str default) s = .ok actor := by
  cases hb : s.body with
  | userTask prompt assignee form =>
    rw [State.Attributed, hb] at h
    obtain ⟨name, rfl⟩ := h
    simp only [actorOf, hb, Json.asText, bind, Except.bind]
    split <;> exact ⟨_, rfl⟩
  | task action =>
    rw [State.Attributed, hb] at h
    obtain ⟨text, rfl⟩ := h
    simp only [actorOf, hb, Json.asText, bind, Except.bind]
    split <;> exact ⟨_, rfl⟩
  | _ => exact ⟨default, by simp only [actorOf, hb, Json.asText]⟩

/-- Who acts in a state cannot be told if no text tells it. -/
theorem actorOf_error {s : State} (h : ¬ s.Attributed) (known : List String) (default : Json) :
    actorOf known default s = .error .notText := by
  cases hb : s.body with
  | userTask prompt assignee form =>
    rw [State.Attributed, hb] at h
    simp only [actorOf, hb, asText_error h]
    rfl
  | task action =>
    rw [State.Attributed, hb] at h
    simp only [actorOf, hb, asText_error h]
    rfl
  | _ => simp [State.Attributed, hb] at h

/-! ## Lanes -/

/-- A state enters a lane that is there, or a new one behind all others. -/
theorem enter_ids (name : String) (stateId : Json) (earlier lanes : List Lane) :
    (enter name stateId earlier lanes).2 ∈ (enter name stateId earlier lanes).1.map (·.id) ∧
    ((enter name stateId earlier lanes).1.map (·.id) = lanes.map (·.id) ∨
      (enter name stateId earlier lanes).1.map (·.id) =
        lanes.map (·.id) ++ [laneId (earlier ++ lanes) name]) := by
  induction lanes generalizing earlier with
  | nil => simp [enter]
  | cons l rest ih =>
    rw [enter]
    split
    · simp
    · obtain ⟨hmem, hids⟩ := ih (earlier ++ [l])
      refine ⟨List.mem_cons_of_mem _ hmem, ?_⟩
      simpa using hids

/-- The states with the given keys are assigned to lanes that are there, and that have ids of
    their own. -/
structure Assigned (keys : List String) (a : Assignment) : Prop where
  texts : ∃ list : List (String × String), a.2 = list.map fun p => (.str p.1, p.2)
  lane : ∀ key ∈ keys, ∃ lane ∈ a.1.map (·.id), Assoc.get? (.str key) a.2 = some lane
  nodup : (a.1.map (·.id)).Nodup

/-- One more state is assigned to the lane that it enters. -/
theorem Assigned.enter {keys : List String} {a : Assignment} (h : Assigned keys a)
    (name key : String) :
    let r := Diagram.enter name (.str key) [] a.1
    Assigned (keys ++ [key]) (r.1, Assoc.put (.str key) r.2 a.2) := by
  obtain ⟨list, hlist⟩ := h.texts
  obtain ⟨hmem, hids⟩ := enter_ids name (.str key) [] a.1
  refine ⟨⟨_, by rw [hlist, Assoc.put_str]⟩, fun key' hk => ?_, ?_⟩
  · rw [hlist, Assoc.put_str, Assoc.get?_str, Assoc.get?_put]
    by_cases heq : key = key'
    · exact ⟨_, hmem, by rw [if_pos (beq_iff_eq.mpr heq)]⟩
    · -- The states that were assigned before stay in their lanes.
      have hbefore : key' ∈ keys :=
        (List.mem_append.mp hk).resolve_right fun hmem => heq (List.mem_singleton.mp hmem).symm
      obtain ⟨lane, hlane, hget⟩ := h.lane key' hbefore
      rw [hlist, Assoc.get?_str] at hget
      refine ⟨lane, ?_, by simp [heq, hget]⟩
      rcases hids with hids | hids
      · rw [hids]; exact hlane
      · rw [hids]; exact List.mem_append_left _ hlane
  · rcases hids with hids | hids
    · rw [hids]; exact h.nodup
    · -- The id of a new lane is not taken.
      rw [hids, List.nodup_append]
      refine ⟨h.nodup, by simp, fun id hid id' hid' heq => ?_⟩
      rw [List.mem_singleton, List.nil_append] at hid'
      exact Text.fresh_not_mem _ _ (hid' ▸ heq ▸ hid)

/-- States are assigned to lanes one after the other. -/
theorem exists_enterAll (known : List String) (default : String) {states : List State}
    (h : ∀ s ∈ states, s.Attributed) (hid : ∀ s ∈ states, s.id = .str s.id.display)
    {keys : List String} {a : Assignment} (ha : Assigned keys a) :
    ∃ a', enterAll known (.str default) a states = .ok a' ∧
      Assigned (keys ++ states.map (·.id.display)) a' := by
  induction states generalizing keys a with
  | nil => exact ⟨a, rfl, by rw [List.map_nil, List.append_nil]; exact ha⟩
  | cons s rest ih =>
    have hs := hid s List.mem_cons_self
    obtain ⟨actor, hactor⟩ := exists_actorOf (h s List.mem_cons_self) known default
    have hentered := ha.enter (laneName (.str default) actor) s.id.display
    rw [← hs] at hentered
    obtain ⟨a', ha', hassigned⟩ := ih (fun t ht => h t (List.mem_cons_of_mem _ ht))
      (fun t ht => hid t (List.mem_cons_of_mem _ ht)) hentered
    refine ⟨a', ?_, ?_⟩
    · have hname : s.id.isName = true := by rw [hs]; rfl
      simp only [enterAll, hactor, hname, bind, Except.bind, Bool.not_true, Bool.false_eq_true,
        ↓reduceIte]
      exact ha'
    · rwa [List.append_assoc, List.singleton_append] at hassigned

/-- The first state of which no text tells who acts is in the way. -/
theorem enterAll_error (known : List String) (default : String) {states : List State}
    (h : ∃ s ∈ states, ¬ s.Attributed) (hid : ∀ s ∈ states, s.id = .str s.id.display)
    (a : Assignment) : enterAll known (.str default) a states = .error .notText := by
  induction states generalizing a with
  | nil => obtain ⟨s, hs, _⟩ := h; cases hs
  | cons s rest ih =>
    by_cases hs : s.Attributed
    · -- The state enters a lane, and one of the rest is in the way.
      obtain ⟨actor, hactor⟩ := exists_actorOf hs known default
      have hname : s.id.isName = true := by rw [hid s List.mem_cons_self]; rfl
      have hrest : ∃ t ∈ rest, ¬ t.Attributed := by
        obtain ⟨t, ht, hnot⟩ := h
        rcases List.mem_cons.mp ht with rfl | ht
        · exact absurd hs hnot
        · exact ⟨t, ht, hnot⟩
      simp only [enterAll, hactor, hname, bind, Except.bind, Bool.not_true, Bool.false_eq_true,
        ↓reduceIte]
      exact ih hrest (fun t ht => hid t (List.mem_cons_of_mem _ ht)) _
    · rw [enterAll, actorOf_error hs]
      rfl

/-- The ids of states that are stored under them are texts. -/
theorem id_eq_display {g : Graph} (h : g.Keyed) {s : State} (hs : s ∈ g.nodes) :
    s.id = .str s.id.display := by
  obtain ⟨key, _, hid, _⟩ := h.find? hs
  rw [hid]
  rfl

/-- The states of a graph have lanes if texts tell who acts in them. -/
theorem exists_assignLanes {g : Graph} (h : g.Keyed) (ha : ∀ s ∈ g.nodes, s.Attributed)
    (default : String) : ∃ a, assignLanes g (.str default) = .ok a ∧ Assigned g.keys a := by
  obtain ⟨actors, hactors⟩ := exists_askedActors ha
  have hnone : Assigned [] (([], []) : Assignment) :=
    ⟨⟨[], rfl⟩, fun _ hk => (nomatch hk), List.nodup_nil⟩
  obtain ⟨a, hlanes, hassigned⟩ := exists_enterAll (knownActors ++ actors) default ha
    (fun s hs => id_eq_display h hs) hnone
  refine ⟨a, Except.bind_eq_ok.mpr ⟨actors, hactors, hlanes⟩, ?_⟩
  rwa [List.nil_append, h.map_display] at hassigned

/-- The states of a graph have no lanes if no text tells who acts in one of them. -/
theorem assignLanes_error {g : Graph} (h : g.Keyed) (ha : ∃ s ∈ g.nodes, ¬ s.Attributed)
    (default : String) : assignLanes g (.str default) = .error .notText := by
  rw [assignLanes]
  rcases askedActors_cases g.nodes with ⟨actors, hactors⟩ | hactors
  · rw [hactors]
    exact enterAll_error _ default ha (fun s hs => id_eq_display h hs) _
  · rw [hactors]
    rfl

/-! ## Columns and ranks -/

/-- The states of an accepted graph have columns. -/
theorem exists_assignColumns {g : Graph} (h : g.Keyed) {warnings : List String}
    (hv : g.validate = .ok warnings) : ∃ columns, assignColumns g = .ok columns := by
  obtain ⟨⟨key, _, hstart⟩, hcheck⟩ := Graph.checked_of_validate hv
  have hexplore : g.explore (.str key) = .ok (g.distances key) :=
    Graph.explore_eq_ok hcheck key
  have hnames : (g.nodes.map (·.id)).all Json.isName = true := by
    rw [List.all_map]
    exact h.all_isName
  simp only [assignColumns, hstart, hexplore, hnames, bind, Except.bind, Bool.not_true,
    Bool.false_eq_true, ↓reduceIte]
  exact ⟨_, rfl⟩

/-- What is above a list of numbers is above each of them. -/
theorem lt_above {n : Nat} {ns : List Nat} (h : n ∈ ns) : n < above ns := by
  -- The number that is carried along never gets smaller.
  have hfold : ∀ (ns : List Nat) (m : Nat), m ≤ ns.foldl (fun m n => max m (n + 1)) m ∧
      (n ∈ ns → n < ns.foldl (fun m n => max m (n + 1)) m) := by
    intro ns
    induction ns with
    | nil => exact fun m => ⟨Nat.le_refl m, fun hn => (nomatch hn)⟩
    | cons k rest ih =>
      intro m
      obtain ⟨hle, hlt⟩ := ih (max m (k + 1))
      simp only [List.foldl_cons, List.mem_cons]
      refine ⟨by omega, fun hn => ?_⟩
      rcases hn with rfl | hn
      · omega
      · exact hlt hn
  exact (hfold ns 0).2 h

/-- What is above numbers is right above the greatest of them. -/
theorem exists_mem_above {ns : List Nat} (h : ns ≠ []) : ∃ n ∈ ns, above ns = n + 1 := by
  -- The number that is carried along is the first one or was made of a number of the list.
  have hfold : ∀ (ns : List Nat) (m : Nat), ns.foldl (fun m n => max m (n + 1)) m = m ∨
      ∃ n ∈ ns, ns.foldl (fun m n => max m (n + 1)) m = n + 1 := by
    intro ns
    induction ns with
    | nil => exact fun m => Or.inl rfl
    | cons k rest ih =>
      intro m
      rw [List.foldl_cons]
      cases ih (max m (k + 1)) with
      | inr hrest =>
        obtain ⟨n, hn, heq⟩ := hrest
        exact Or.inr ⟨n, List.mem_cons_of_mem _ hn, heq⟩
      | inl heq =>
        rw [heq]
        by_cases hk : k + 1 ≤ m
        · exact Or.inl (by omega)
        · exact Or.inr ⟨k, List.mem_cons_self, by omega⟩
  cases hfold ns 0 with
  | inr hmem => exact hmem
  | inl hzero =>
    obtain ⟨n, hn⟩ := List.exists_mem_of_ne_nil ns h
    have hlt := lt_above hn
    rw [above, hzero] at hlt
    omega

/-- Ranking keeps the placements. -/
theorem ranked_fst (earlier places : List Placement) :
    (ranked earlier places).map (·.1) = places := by
  induction places generalizing earlier with
  | nil => rfl
  | cons p rest ih => rw [ranked, List.map_cons, ih]

/-- A rank counts all that came earlier to the lane and column. -/
theorem le_rank {earlier places : List Placement} {p : Placement × Nat}
    (h : p ∈ ranked earlier places) :
    earlier.countP (fun q => q.lane == p.1.lane && q.column == p.1.column) ≤ p.2 := by
  induction places generalizing earlier with
  | nil => cases h
  | cons first rest ih =>
    rw [ranked] at h
    rcases List.mem_cons.mp h with rfl | h
    · exact Nat.le_refl _
    · have hle := ih h
      rw [List.countP_append] at hle
      omega

/-- Of two nodes in one lane and column the later one has the larger rank. -/
theorem pairwise_ranked (earlier places : List Placement) :
    (ranked earlier places).Pairwise fun p q =>
      p.1.lane = q.1.lane → p.1.column = q.1.column → p.2 < q.2 := by
  induction places generalizing earlier with
  | nil => exact .nil
  | cons first rest ih =>
    rw [ranked, List.pairwise_cons]
    refine ⟨fun q hq hlane hcolumn => ?_, ih _⟩
    have hle := le_rank hq
    rw [List.countP_append, ← hlane, ← hcolumn] at hle
    simp only [List.countP_cons, List.countP_nil, beq_self_eq_true, Bool.and_self, ↓reduceIte]
      at hle
    omega

/-- A lane has a row for every rank in it. -/
theorem lt_rowsOf {places : List (Placement × Nat)} {p : Placement × Nat} (h : p ∈ places) :
    p.2 < rowsOf p.1.lane places := by
  have hmem : p.2 ∈ (places.filter (·.1.lane == p.1.lane)).map (·.2) :=
    List.mem_map.mpr ⟨p, List.mem_filter.mpr ⟨h, beq_self_eq_true _⟩, rfl⟩
  have hlt := lt_above hmem
  rw [rowsOf]
  omega

/-! ## Places -/

/-- A state that is assigned to a lane has a placement there. -/
theorem exists_placement {keys : List String} {a : Assignment} (ha : Assigned keys a)
    (columns : List (Json × Nat)) {s : State} {key : String} (hid : s.id = .str key)
    (hk : key ∈ keys) : ∃ p, placement a.1 a.2 columns s = .ok p ∧ p.id = s.id ∧
      p.label = s.label ∧ p.lane ∈ a.1.map (·.id) ∧ Assoc.get? s.id a.2 = some p.lane := by
  obtain ⟨lane, hlane, hget⟩ := ha.lane key hk
  rw [← hid] at hget
  simp only [placement, hget]
  split
  · rename_i hnone
    obtain ⟨l, hl, rfl⟩ := List.mem_map.mp hlane
    exact absurd (List.find?_eq_none.mp hnone l hl) (by simp)
  · rename_i l hl
    have hsame := List.find?_some hl
    simp only [Option.some.injEq, decide_eq_true_eq] at hsame
    exact ⟨_, rfl, rfl, rfl, hsame ▸ hlane, by rw [hsame]⟩

/-- The places of the start event and of the states of a graph: all lanes are there, with ids of
    their own, and no two places of one lane and column have the same rank. -/
structure Placed (g : Graph) (a : Assignment) (places : List (Placement × Nat)) : Prop where
  states : places.map (fun p => (p.1.id, p.1.label, some p.1.lane)) =
    (startNode, .str startLabel, Assoc.get? g.start a.2) ::
      g.nodes.map fun s => (s.id, s.label, Assoc.get? s.id a.2)
  lane : ∀ p ∈ places, p.1.lane ∈ a.1.map (·.id)
  lanes : (a.1.map (·.id)).Nodup
  ranks : places.Pairwise fun p q =>
    p.1.lane = q.1.lane → p.1.column = q.1.column → p.2 < q.2

/-- All states of a graph have placements in the lanes that they are assigned to. -/
theorem exists_placements {g : Graph} (h : g.Keyed) {a : Assignment} (ha : Assigned g.keys a)
    (columns : List (Json × Nat)) :
    ∃ placed, g.nodes.mapM (placement a.1 a.2 columns) = .ok placed ∧
      placed.map (fun p => (p.id, p.label, some p.lane)) =
        g.nodes.map (fun s => (s.id, s.label, Assoc.get? s.id a.2)) ∧
      ∀ p ∈ placed, p.lane ∈ a.1.map (·.id) := by
  have hplaces : ∀ s ∈ g.nodes, ∃ p, placement a.1 a.2 columns s = .ok p ∧ p.id = s.id ∧
      p.label = s.label ∧ p.lane ∈ a.1.map (·.id) ∧ Assoc.get? s.id a.2 = some p.lane := by
    intro s hs
    exact exists_placement ha columns (id_eq_display h hs) (h.display_mem_keys hs)
  obtain ⟨placed, hplaced⟩ := Except.exists_mapM_eq_ok fun s hs =>
    (hplaces s hs).imp fun _ hp => hp.1
  refine ⟨placed, hplaced, Except.map_eq_of_mapM (fun s hs p hp => ?_) hplaced, fun p hp => ?_⟩
  · obtain ⟨p', hp', hid, hlabel, _, hlane⟩ := hplaces s hs
    cases hp.symm.trans hp'
    rw [hid, hlabel, hlane]
  · obtain ⟨s, hs, hp⟩ := Except.exists_of_mem_mapM hplaced hp
    obtain ⟨p', hp', _, _, hlane, _⟩ := hplaces s hs
    cases hp.symm.trans hp'
    exact hlane

/-- An accepted graph has places for its states if texts tell who acts in them. -/
theorem exists_placesOf {g : Graph} (h : g.Keyed) {warnings : List String}
    (hv : g.validate = .ok warnings) (ha : ∀ s ∈ g.nodes, s.Attributed) (default : String) :
    ∃ a places, assignLanes g (.str default) = .ok a ∧ placesOf g default = .ok (a.1, places) ∧
      Placed g a places := by
  obtain ⟨a, hlanes, hassigned⟩ := exists_assignLanes h ha default
  obtain ⟨columns, hcolumns⟩ := exists_assignColumns h hv
  obtain ⟨⟨start, hk, hstart⟩, _⟩ := Graph.checked_of_validate hv
  obtain ⟨lane, hlane, hget⟩ := hassigned.lane start hk
  rw [← hstart] at hget
  obtain ⟨placed, hplaced, hstates, hlanesOf⟩ := exists_placements h hassigned columns
  -- The start event is in the lane of the state that the flow starts with.
  refine ⟨a, ranked [] (⟨startNode, .str startLabel, lane, 0⟩ :: placed), hlanes, ?_, ?_⟩
  · simp only [placesOf, hlanes, hcolumns, hget, hplaced, bind, Except.bind, Except.mapError]
    rfl
  · refine ⟨?_, fun p hp => ?_, hassigned.nodup, pairwise_ranked _ _⟩
    · have hfst := congrArg (List.map fun p : Placement => (p.id, p.label, some p.lane))
        (ranked_fst [] (⟨startNode, .str startLabel, lane, 0⟩ :: placed))
      rw [List.map_map, List.map_cons, hstates, ← hget] at hfst
      exact hfst
    · have hmem := List.mem_map_of_mem (f := (·.1)) hp
      rw [ranked_fst] at hmem
      rcases List.mem_cons.mp hmem with heq | hmem
      · rw [heq]; exact hlane
      · exact hlanesOf _ hmem

end Diagram

end Swimlane
