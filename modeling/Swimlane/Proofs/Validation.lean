import Mathlib
import Swimlane.Graph.Validation
import Swimlane.Proofs.Except
import Swimlane.Proofs.Reachability

/-!
# What validation says

Validation goes through a graph state by state and then searches it twice.  Here its verdict is
said without the searches: which graphs are valid, and which of their states are warned of, in
terms of the paths of the graph.

## Key results

- `checkState_eq_ok_iff`: what is asked of a single state
- `Assembled.validateFrom_of_valid`: the warnings about a valid graph
- `Assembled.validateFrom_of_not_valid`: a graph that is not valid is refused with a fault
- `validateInPlace_of_assembled`: the verdict, and what becomes of the graph
- `mapStates_defects`: warnings depend on the places of states only
-/

namespace Swimlane

/-- A state with texts for its id and its targets, and with the label of what it does. -/
structure State.Typed (s : State) : Prop where
  id : ∃ id, s.id = .str id
  label : s.label = .str s.body.kind.name
  listed : s.edgeMisfit? = none
  targets : ∀ t ∈ s.targets, ∃ id, t = .str id

/-- A change of states that keeps their places in a graph: their ids, their targets, and whether
    they are stops. -/
structure State.KeepsPlace (f : State → State) : Prop where
  id : ∀ s, (f s).id = s.id
  targets : ∀ s, (f s).targets = s.targets
  isStop : ∀ s, (f s).isStop = s.isStop

namespace Graph

/-- A graph of such states, each stored under its id, with a start that may name a state. -/
structure Assembled (g : Graph) : Prop extends Keyed g where
  start : g.start.isName = true
  typed : ∀ s ∈ g.nodes, s.Typed

/-- A graph that is fit for use: its start exists, every choice leads somewhere, every edge leads
    to a state, and a path leads from the start to a stop. -/
structure Valid (g : Graph) : Prop where
  nonempty : g.states ≠ []
  start : ∃ key ∈ g.keys, g.start = .str key
  choices : ∀ s ∈ g.nodes, ∀ branches otherwise, s.body = .choice branches otherwise →
    branches.items ≠ [] ∨ otherwise.isGiven = true
  targets : ∀ s ∈ g.nodes, ∀ t ∈ s.targets, ∃ key ∈ g.keys, t = .str key
  stops : ∀ key, g.start = .str key → g.CanStop key

open Classical in
/-- What is to be warned of in a graph that starts at the given key: first the states to which no
    path leads from there, then the states from which no path leads to a stop, both in the order
    of construction. -/
noncomputable def defects (g : Graph) (start : String) : List String :=
  (g.keys.filter fun key => ¬ g.Reaches start key).map
    (fun key => s!"State '{key}' is unreachable from start") ++
  (g.keys.filter fun key => ¬ g.CanStop key).map
    (fun key => s!"State '{key}' has no path to a stop state")

/-! ## Single states -/

/-- A value without items is not given. -/
theorem isGiven_of_items {v : Json} (h : v.items = .ok []) : v.isGiven = false := by
  cases v with
  | str s =>
    simp only [Json.items, Except.ok.injEq, List.map_eq_nil_iff, String.toList_eq_nil_iff] at h
    simp [Json.isGiven, h]
  | arr vs =>
    simp only [Json.items, Except.ok.injEq] at h
    simp [Json.isGiven, h]
  | obj members =>
    simp only [Json.items, Except.ok.injEq, List.map_eq_nil_iff] at h
    simp [Json.isGiven, h]
  | _ => cases h

/-- Branches that can be listed are empty if there are none in the list. -/
theorem isEmpty_branches_iff {branches : State.Branches} (h : branches.misfit? = none) :
    branches.isEmpty = true ↔ branches.items = [] := by
  cases branches with
  | list bs => exact List.isEmpty_iff
  | foreign v =>
    have hitems : v.items = .ok [] := by
      simp only [State.Branches.misfit?] at h
      split at h
      · assumption
      · cases h
      · cases h
    simp [State.Branches.isEmpty, State.Branches.items, isGiven_of_items hitems]

/-- A choice leads somewhere by a branch or by its last resort. -/
theorem isEmptyChoice_eq_false_iff {s : State} (h : s.edgeMisfit? = none) :
    isEmptyChoice s = false ↔ ∀ branches otherwise, s.body = .choice branches otherwise →
      branches.items ≠ [] ∨ otherwise.isGiven = true := by
  cases hb : s.body with
  | choice branches otherwise =>
    have hlisted : branches.misfit? = none := by
      simpa only [State.edgeMisfit?, hb] using h
    have hempty := isEmpty_branches_iff hlisted
    simp only [isEmptyChoice, hb, Bool.and_eq_false_iff, Bool.not_eq_eq_eq_not, Bool.not_false,
      State.Body.choice.injEq]
    constructor
    · rintro hsome b o ⟨rfl, rfl⟩
      exact hsome.imp_left fun hne hnil => by rw [hempty.mpr hnil] at hne; cases hne
    · intro hsome
      exact (hsome _ _ ⟨rfl, rfl⟩).imp_left fun hne => Bool.eq_false_iff.mpr fun he =>
        hne (hempty.mp he)
  | _ => simp [isEmptyChoice, hb]

/-- A value is found among the keys if it is one of them. -/
theorem hasKey_eq_true_iff {g : Graph} {v : Json} :
    g.hasKey v = .ok true ↔ ∃ key ∈ g.keys, v = .str key := by
  cases v with
  | str s => simp [hasKey, Json.isName, Json.asId?]
  | _ => simp [hasKey, Json.isName, Json.asId?]

/-- A value that is no key is not found if it may be asked for. -/
theorem hasKey_eq_false {g : Graph} {v : Json} (hname : v.isName = true)
    (h : ¬ ∃ key ∈ g.keys, v = .str key) : g.hasKey v = .ok false := by
  cases v with
  | str s => simpa [hasKey, Json.isName, Json.asId?] using h
  | arr vs => cases hname
  | obj members => cases hname
  | _ => rfl

/-- A target passes its check if it is a key. -/
theorem checkTarget_eq_ok_iff {g : Graph} {id t : Json} :
    g.checkTarget id t = .ok () ↔ ∃ key ∈ g.keys, t = .str key := by
  rw [← hasKey_eq_true_iff, checkTarget]
  cases g.hasKey t with
  | error e => exact ⟨(nomatch ·), (nomatch ·)⟩
  | ok b =>
    cases b with
    | false => exact ⟨(nomatch ·), (nomatch ·)⟩
    | true => exact ⟨fun _ => rfl, fun _ => rfl⟩

/-- A state passes its check if its label is the name of a kind, it is no empty choice, its edges
    can be listed, and they lead to states. -/
theorem checkState_eq_ok_iff {g : Graph} {s : State} : g.checkState s = .ok () ↔
    (Kind.ofLabel? s.label).isSome = true ∧ isEmptyChoice s = false ∧ s.edgeMisfit? = none ∧
      ∀ t ∈ s.targets, ∃ key ∈ g.keys, t = .str key := by
  rw [checkState]
  cases hl : Kind.ofLabel? s.label with
  | none => exact ⟨(nomatch ·), fun h => nomatch h.1⟩
  | some kind =>
    cases he : isEmptyChoice s with
    | true => exact ⟨(nomatch ·), fun h => nomatch h.2.1⟩
    | false =>
      cases hm : s.edgeMisfit? with
      | some misfit => exact ⟨(nomatch ·), fun h => nomatch h.2.2.1⟩
      | none =>
        -- All that is left are the targets.
        have htargets : s.targets.forM (g.checkTarget s.id) = .ok () ↔
            ∀ t ∈ s.targets, ∃ key ∈ g.keys, t = .str key := by
          rw [Except.forM_eq_ok_iff]
          simp only [checkTarget_eq_ok_iff]
        exact ⟨fun h => ⟨rfl, rfl, rfl, htargets.mp h⟩, fun h => htargets.mpr h.2.2.2⟩

/-- The check of a text as a target fails with a fault only. -/
theorem checkTarget_error {g : Graph} {id : Json} {target : String} {failure : Failure}
    (h : g.checkTarget id (.str target) = .error failure) : ∃ fault, failure = .graph fault := by
  have hkey : g.hasKey (.str target) = .ok (decide (target ∈ g.keys)) := rfl
  rw [checkTarget, hkey] at h
  cases hd : decide (target ∈ g.keys) with
  | true => rw [hd] at h; cases h
  | false => rw [hd] at h; cases h; exact ⟨_, rfl⟩

namespace Assembled

variable {g : Graph}

/-- The check of a state with texts fails with a fault only. -/
theorem checkState_error (h : g.Assembled) {s : State} (hs : s ∈ g.nodes) {failure : Failure}
    (hf : g.checkState s = .error failure) : ∃ fault, failure = .graph fault := by
  rw [checkState, (h.typed s hs).label, Kind.ofLabel?_name, (h.typed s hs).listed] at hf
  cases he : isEmptyChoice s with
  | true => rw [he] at hf; cases hf; exact ⟨_, rfl⟩
  | false =>
    rw [he] at hf
    have hf : s.targets.forM (g.checkTarget s.id) = .error failure := hf
    rcases Except.forM_cases (g.checkTarget s.id) s.targets with hok | ⟨t, ht, e, htarget, herror⟩
    · rw [hok] at hf; cases hf
    · rw [herror] at hf
      cases hf
      obtain ⟨id, rfl⟩ := (h.typed s hs).targets t ht
      exact checkTarget_error htarget

end Assembled

/-! ## The searches -/

section Searches

variable {g : Graph}

/-- The edges of states that pass their checks can be followed. -/
theorem stepMisfit?_eq_none (hcheck : ∀ s ∈ g.nodes, g.checkState s = .ok ()) (key : String) :
    g.stepMisfit? key = none := by
  cases hf : g.find? key with
  | none => simp only [Graph.stepMisfit?, hf]; rfl
  | some s =>
    have hs := mem_nodes_of_find? hf
    obtain ⟨_, _, hlisted, htargets⟩ := checkState_eq_ok_iff.mp (hcheck s hs)
    have hall : s.targets.all Json.isName = true := by
      rw [List.all_eq_true]
      intro t ht
      obtain ⟨key, _, rfl⟩ := htargets t ht
      rfl
    simp only [Graph.stepMisfit?, hf, Option.bind_eq_bind, Option.bind_some, hlisted, hall]
    rfl

/-- A graph whose edges can be followed can be searched from every key. -/
theorem explore_of_steps (hstep : ∀ key, g.stepMisfit? key = none) (key : String) :
    g.explore (.str key) = .ok (g.distances key) := by
  simp only [Graph.explore, Json.isName, Json.asId?, Bool.not_true, Bool.false_eq_true, ↓reduceIte]
  split
  case h_1 m hsome =>
    obtain ⟨⟨k, _⟩, _, hmisfit⟩ := List.exists_of_findSome?_eq_some hsome
    cases (hstep k).symm.trans hmisfit
  case h_2 => rfl

/-- States that pass their checks can be searched from every key. -/
theorem explore_eq_ok (hcheck : ∀ s ∈ g.nodes, g.checkState s = .ok ()) (key : String) :
    g.explore (.str key) = .ok (g.distances key) :=
  explore_of_steps (stepMisfit?_eq_none hcheck) key

/-- The ids of states that are stored under them are names. -/
theorem Keyed.all_isName (h : g.Keyed) : g.nodes.all (·.id.isName) = true := by
  rw [List.all_eq_true]
  intro s hs
  obtain ⟨key, _, hid, _⟩ := h.find? hs
  rw [hid]
  rfl

/-- The forward search meets a stop if a path leads to one. -/
theorem Keyed.meets_stop_iff (h : g.Keyed) {key : String} (hk : key ∈ g.keys) :
    ((g.distances key).map (·.1)).any (fun k => ((g.find? k).map (·.isStop)).getD false) = true ↔
      g.CanStop key := by
  rw [List.any_eq_true]
  constructor
  · rintro ⟨k, hmem, hstop⟩
    cases hf : g.find? k with
    | none => rw [hf] at hstop; cases hstop
    | some s =>
      rw [hf] at hstop
      have hpath := ((h.mem_distances_iff hk).mp hmem).2
      exact ⟨s, mem_nodes_of_find? hf, hstop, k, h.id_of_find? hf, hpath⟩
  · rintro ⟨s, hs, hstop, k, hid, hpath⟩
    have hf := h.find?_of_id hs hid
    have hkey : k ∈ g.keys := List.mem_map.mpr ⟨_, Assoc.mem_of_get? hf, rfl⟩
    exact ⟨k, (h.mem_distances_iff hk).mpr ⟨hkey, hpath⟩, by rw [hf]; exact hstop⟩

/-- Whether a state is among some ids is told by its id. -/
theorem Keyed.isAmong_iff (h : g.Keyed) {s : State} (hs : s ∈ g.nodes) (ids : List String) :
    isAmong ids s = true ↔ s.id.display ∈ ids := by
  obtain ⟨key, _, hid, _⟩ := h.find? hs
  simp only [isAmong, List.any_eq_true, Json.isText_iff, hid, Json.str.injEq, exists_eq_right',
    Json.display]

/-- No state has lost its key. -/
theorem Keyed.strayStopping?_eq_none (h : g.Keyed) (stopping : List String) :
    g.strayStopping? stopping = none := by
  refine List.find?_eq_none.mpr fun s hs => ?_
  have hamong : isAmong g.keys s = true := (h.isAmong_iff hs _).mpr (h.display_mem_keys hs)
  simp [hamong]

open Classical in
/-- The states that are not among some ids, if these are the ids with a property. -/
theorem Keyed.map_filter_isAmong (h : g.Keyed) {ids : List String} {P : String → Prop}
    (hids : ∀ key ∈ g.keys, key ∈ ids ↔ P key) (message : String → String) :
    (g.nodes.filter (!isAmong ids ·)).map (fun s => message s.id.display) =
      (g.keys.filter fun key => ¬ P key).map message := by
  have hfilter : g.nodes.filter (!isAmong ids ·) =
      g.nodes.filter fun s => decide (¬ P s.id.display) := by
    refine List.filter_congr fun s hs => ?_
    have hiff : isAmong ids s = true ↔ P s.id.display :=
      (h.isAmong_iff hs ids).trans (hids _ (h.display_mem_keys hs))
    by_cases hP : P s.id.display
    · simp [hiff.mpr hP, hP]
    · simp [Bool.eq_false_iff.mpr (mt hiff.mp hP), hP]
  rw [hfilter, ← h.map_display, List.filter_map, List.map_map]
  rfl

/-- The searches warn of what is to be warned of, in whatever order the stops are taken. -/
theorem Keyed.warningsOf_eq (h : g.Keyed) {key : String} (hk : key ∈ g.keys) {stops : List String}
    (hstops : stops.Perm g.stopIds) :
    g.warningsOf ((g.distances key).map (·.1)) (g.stoppingFrom stops) = g.defects key := by
  have hreach : ∀ k ∈ g.keys, k ∈ (g.distances key).map (·.1) ↔ g.Reaches key k := by
    intro k hmem
    rw [h.mem_distances_iff hk, and_iff_right hmem]
  have hstop : ∀ k ∈ g.keys, k ∈ g.stoppingFrom stops ↔ g.CanStop k :=
    fun _ _ => mem_stoppingFrom_iff_canStop hstops
  rw [warningsOf, defects,
    h.map_filter_isAmong hreach fun id => s!"State '{id}' is unreachable from start",
    h.map_filter_isAmong hstop fun id => s!"State '{id}' has no path to a stop state"]

end Searches

/-! ## The verdict -/

section Verdict

variable {g : Graph}

/-- A graph that is accepted has a start, and all its states pass their checks. -/
theorem checked_of_validate {warnings : List String} (h : g.validate = .ok warnings) :
    (∃ key ∈ g.keys, g.start = .str key) ∧ ∀ s ∈ g.nodes, g.checkState s = .ok () := by
  rw [validate, validateFrom] at h
  cases hstates : g.states.isEmpty with
  | true => rw [hstates] at h; cases h
  | false =>
    rw [hstates] at h
    obtain ⟨found, hfound, h⟩ := Except.bind_eq_ok.mp h
    cases found with
    | false => cases h
    | true =>
      obtain ⟨_, hcheck, _⟩ := Except.bind_eq_ok.mp h
      exact ⟨hasKey_eq_true_iff.mp hfound, Except.forM_eq_ok_iff.mp hcheck⟩

/-- The verdict on a graph whose states pass their checks depends on the stop that the forward
    search meets or does not meet. -/
theorem Keyed.validateFrom_eq (h : g.Keyed) {key : String} (hk : key ∈ g.keys)
    (hstart : g.start = .str key) (hcheck : ∀ s ∈ g.nodes, g.checkState s = .ok ())
    (stops : List String) :
    g.validateFrom stops =
      if ((g.distances key).map (·.1)).any (fun k => ((g.find? k).map (·.isStop)).getD false) then
        .ok (g.warningsOf ((g.distances key).map (·.1)) (g.stoppingFrom stops))
      else .error (.graph (.noReachableStop g.start)) := by
  have hstates : g.states.isEmpty = false := by
    rw [List.isEmpty_eq_false_iff]
    intro hnil
    rw [keys, hnil] at hk
    cases hk
  have hfound : g.hasKey g.start = .ok true := hasKey_eq_true_iff.mpr ⟨key, hk, hstart⟩
  have hchecks : g.nodes.forM g.checkState = .ok () := Except.forM_eq_ok_iff.mpr hcheck
  have hexplore : g.explore g.start = .ok (g.distances key) := by
    rw [hstart]
    exact explore_eq_ok hcheck key
  have hreach : g.reachable g.start = .ok ((g.distances key).map (·.1)) := by
    simp only [reachable, ite_self, hexplore]
    rfl
  -- What is left is to look for a stop among the states that were met, and to tell the warnings.
  simp only [validateFrom, hstates, hfound, hchecks, hreach, h.all_isName,
    h.strayStopping?_eq_none, bind, Except.bind, Except.mapError, Bool.not_true,
    Bool.false_eq_true, ↓reduceIte]
  split <;> rename_i hstop
  · rw [if_neg]
    · rfl
    · simpa using hstop
  · rw [if_pos]
    · rfl
    · simpa using hstop

/-- What is added to a graph is stored under its id, which is new. -/
theorem add_eq_ok {s : State} {g' : Graph} (h : g.add s = .ok g') : s.id.display ∉ g.keys ∧
    g' = { g with
      states := g.states ++ [(s.id.display, s)]
      start := if g.start.isGiven then g.start else s.id } := by
  rw [add] at h
  split at h
  · cases h
  · rename_i hnew
    cases h
    exact ⟨hnew, rfl⟩

/-- What is added to a graph is its last node. -/
theorem nodes_of_add {s : State} {g' : Graph} (h : g.add s = .ok g') :
    g'.nodes = g.nodes ++ [s] := by
  obtain ⟨-, rfl⟩ := add_eq_ok h
  simp [nodes]

/-- The states stay under their ids if one is added. -/
theorem Keyed.add (h : g.Keyed) {s : State} {id : String} (hid : s.id = .str id) {g' : Graph}
    (hadd : g.add s = .ok g') : g'.Keyed := by
  obtain ⟨hnew, rfl⟩ := add_eq_ok hadd
  have hdisplay : s.id.display = id := by rw [hid]; rfl
  rw [hdisplay] at hnew ⊢
  constructor
  · intro p hp
    rcases List.mem_append.mp hp with hp | hp
    · exact h.keyed p hp
    · rw [List.mem_singleton.mp hp]; exact hid
  · have hkeys : (g.states ++ [(id, s)]).map (·.1) = g.keys ++ [id] := by simp [keys]
    rw [keys, hkeys, List.nodup_append]
    refine ⟨h.nodup, by simp, fun a ha b hb hab => hnew ?_⟩
    rw [← List.mem_singleton.mp hb, ← hab]
    exact ha

namespace Assembled

/-- The states of a valid graph pass their checks. -/
theorem checkState_of_valid (h : g.Assembled) (hv : g.Valid) {s : State} (hs : s ∈ g.nodes) :
    g.checkState s = .ok () := by
  have ht := h.typed s hs
  refine checkState_eq_ok_iff.mpr ⟨?_, ?_, ht.listed, hv.targets s hs⟩
  · rw [ht.label, Kind.ofLabel?_name]
    rfl
  · exact (isEmptyChoice_eq_false_iff ht.listed).mpr (hv.choices s hs)

/-- The warnings about a valid graph, in whatever order the stops are taken. -/
theorem validateFrom_of_valid (h : g.Assembled) (hv : g.Valid) {start : String}
    (hstart : g.start = .str start) {stops : List String} (hstops : stops.Perm g.stopIds) :
    g.validateFrom stops = .ok (g.defects start) := by
  obtain ⟨key, hk, hkey⟩ := hv.start
  cases hkey.symm.trans hstart
  have hstop := (h.meets_stop_iff hk).mpr (hv.stops _ hstart)
  rw [h.validateFrom_eq hk hstart (fun s hs => h.checkState_of_valid hv hs), if_pos hstop,
    h.warningsOf_eq hk hstops]

/-- A graph that is not valid is refused with a fault, which does not depend on the order in which
    the stops are taken. -/
theorem validateFrom_of_not_valid (h : g.Assembled) (hv : ¬ g.Valid) :
    ∃ fault, ∀ stops, g.validateFrom stops = .error (.graph fault) := by
  -- The checks are made in this order: states, start, each state, and a stop in reach.
  by_cases hstates : g.states = []
  · refine ⟨.noStates g.name, fun stops => ?_⟩
    simp only [validateFrom, hstates]
    rfl
  have hsome : g.states.isEmpty = false := List.isEmpty_eq_false_iff.mpr hstates
  by_cases hfound : ∃ start ∈ g.keys, g.start = .str start
  · obtain ⟨start, hk, hstart⟩ := hfound
    rcases Except.forM_cases g.checkState g.nodes with hok | ⟨s, hs, failure, hfail, hchecks⟩
    · have hcheck := Except.forM_eq_ok_iff.mp hok
      have hstop : ¬ g.CanStop start := by
        intro hstop
        refine hv ⟨hstates, ⟨start, hk, hstart⟩, ?_, ?_, ?_⟩
        · intro s hs
          exact (isEmptyChoice_eq_false_iff (h.typed s hs).listed).mp
            (checkState_eq_ok_iff.mp (hcheck s hs)).2.1
        · intro s hs
          exact (checkState_eq_ok_iff.mp (hcheck s hs)).2.2.2
        · intro key hkey
          cases hkey.symm.trans hstart
          exact hstop
      refine ⟨.noReachableStop g.start, fun stops => ?_⟩
      rw [h.validateFrom_eq hk hstart hcheck,
        if_neg fun hany => hstop ((h.meets_stop_iff hk).mp hany)]
    · obtain ⟨fault, rfl⟩ := h.checkState_error hs hfail
      have hfound : g.hasKey g.start = .ok true := hasKey_eq_true_iff.mpr ⟨start, hk, hstart⟩
      refine ⟨fault, fun stops => ?_⟩
      simp only [validateFrom, hsome, hfound, hchecks]
      rfl
  · have hmissing := hasKey_eq_false h.start hfound
    refine ⟨.missingStart g.start, fun stops => ?_⟩
    simp only [validateFrom, hsome, hmissing]
    rfl

/-- Adding states with texts to a graph of such states gives a graph of such states. -/
theorem add (h : g.Assembled) {s : State} (hs : s.Typed) {g' : Graph} (hadd : g.add s = .ok g') :
    g'.Assembled := by
  obtain ⟨id, hid⟩ := hs.id
  refine ⟨h.toKeyed.add hid hadd, ?_, ?_⟩
  · obtain ⟨-, rfl⟩ := add_eq_ok hadd
    by_cases hgiven : g.start.isGiven = true
    · simpa [hgiven] using h.start
    · simp [hgiven, hid, Json.isName]
  · intro t ht
    rw [nodes_of_add hadd, List.mem_append, List.mem_singleton] at ht
    rcases ht with ht | rfl
    · exact h.typed t ht
    · exact hs

/-- A graph that is accepted is valid. -/
theorem valid_of_validate (h : g.Assembled) {warnings : List String}
    (hok : g.validate = .ok warnings) : g.Valid := by
  refine Classical.byContradiction fun hv => ?_
  obtain ⟨fault, herror⟩ := h.validateFrom_of_not_valid hv
  cases (herror g.stopIds).symm.trans hok

end Assembled

/-- Whatever is assembled by adding states with texts one after the other is a graph of such
    states. -/
theorem assembled_of_add {states : List State} (h : ∀ s ∈ states, s.Typed) {g g' : Graph}
    (hg : g.Assembled) (hadd : states.foldlM add g = .ok g') : g'.Assembled := by
  induction states generalizing g with
  | nil => cases hadd; exact hg
  | cons s rest ih =>
    obtain ⟨g₁, hs, hrest⟩ := Except.bind_eq_ok.mp hadd
    have hg₁ := hg.add (h s List.mem_cons_self) hs
    exact ih (fun t ht => h t (List.mem_cons_of_mem _ ht)) hg₁ hrest

/-- A flow without states is one to begin with. -/
theorem assembled_empty (name : String) : (empty name).Assembled :=
  ⟨⟨fun _ hp => (nomatch hp), List.nodup_nil⟩, rfl, fun _ hs => (nomatch hs)⟩

/-- Validation accepts a graph of states with texts if and only if it is valid.  An accepted graph
    gets the warnings that it deserves and is changed in nothing else; a graph that is refused,
    for a fault, stays as it is.  The order in which the stops are taken does not matter. -/
theorem validateInPlace_of_assembled {g : Graph} (h : g.Assembled) :
    ((∃ warnings, g.validate = .ok warnings) ↔ g.Valid) ∧
    (g.Valid → ∃ start ∈ g.keys, g.start = .str start ∧
      g.validateInPlace = ({ g with warnings := g.defects start }, .ok (g.defects start))) ∧
    (¬ g.Valid → ∃ fault, g.validateInPlace = (g, .error (.graph fault))) ∧
    (∀ stops, stops.Perm g.stopIds → g.validateFrom stops = g.validate) := by
  by_cases hv : g.Valid
  · obtain ⟨start, hk, hstart⟩ := hv.start
    have hok : g.validate = .ok (g.defects start) :=
      h.validateFrom_of_valid hv hstart (List.Perm.refl _)
    refine ⟨⟨fun _ => hv, fun _ => ⟨_, hok⟩⟩, fun _ => ⟨start, hk, hstart, ?_⟩,
      fun hnot => absurd hv hnot, fun stops hstops => ?_⟩
    · rw [validateInPlace, validated, hok]
      rfl
    · rw [hok, h.validateFrom_of_valid hv hstart hstops]
  · obtain ⟨fault, hfault⟩ := h.validateFrom_of_not_valid hv
    have herror : g.validate = .error (.graph fault) := hfault _
    refine ⟨⟨?_, fun hvalid => absurd hvalid hv⟩, fun hvalid => absurd hvalid hv,
      fun _ => ⟨fault, ?_⟩, fun stops _ => ?_⟩
    · rintro ⟨warnings, hok⟩
      rw [herror] at hok
      cases hok
    · rw [validateInPlace, validated, herror]
      rfl
    · rw [hfault, herror]

/-- States with a loop that cannot be left, and with a state that nothing leads to. -/
def loopingStates : List State :=
  [State.make "check" (.choice (.list [⟨.str "done", .str "stop"⟩]) (.str "retry")) .null,
    State.make "retry" (.task (.str "retry")) (.str "retry"),
    State.make "report" (.task (.str "report")) (.str "stop"),
    State.make "stop" (.stop (.str "Done")) .null]

/-- The graph of these states. -/
def loopingFlow : Graph :=
  { name := "Check"
    start := .str "check"
    states := loopingStates.map fun s => (s.id.display, s)
    warnings := [] }

/-- The graph is assembled of states with texts. -/
theorem assembled_loopingFlow : loopingFlow.Assembled := by
  have htyped : ∀ s ∈ loopingStates, s.Typed := by
    intro s hs
    simp only [loopingStates, List.mem_cons, List.not_mem_nil, or_false] at hs
    rcases hs with rfl | rfl | rfl | rfl <;>
      refine ⟨⟨_, rfl⟩, rfl, rfl, ?_⟩ <;>
      simp [State.targets, State.make, State.Branches.items, Json.isGiven]
  have hadd : loopingStates.foldlM add (empty "Check") = .ok loopingFlow := by cbv
  exact assembled_of_add htyped (assembled_empty "Check") hadd

/-- The states that cannot be reached are warned of first, then those that cannot stop. -/
theorem validateInPlace_loopingFlow : loopingFlow.Assembled ∧
    loopingFlow.Valid ∧
    loopingFlow.defects "check" = ["State 'report' is unreachable from start",
      "State 'retry' has no path to a stop state"] ∧
    loopingFlow.validateInPlace = ({ loopingFlow with warnings := loopingFlow.defects "check" },
      .ok (loopingFlow.defects "check")) := by
  obtain ⟨haccepted, hvalid, _⟩ := validateInPlace_of_assembled assembled_loopingFlow
  have hwarnings : loopingFlow.validate = .ok ["State 'report' is unreachable from start",
      "State 'retry' has no path to a stop state"] := by cbv
  have hv := haccepted.mp ⟨_, hwarnings⟩
  obtain ⟨start, _, hstart, hplace⟩ := hvalid hv
  cases hstart
  have hdefects := congrArg Prod.snd hplace
  rw [validateInPlace, validated, hwarnings] at hdefects
  exact ⟨assembled_loopingFlow, hv, (Except.ok.inj hdefects).symm, hplace⟩

end Verdict

/-! ## Changes that validation does not see -/

/-- The graph with every state changed in the same way. -/
def mapStates (f : State → State) (g : Graph) : Graph :=
  { g with states := g.states.map fun p => (p.1, f p.2) }

@[simp] theorem mapStates_keys (f : State → State) (g : Graph) : (g.mapStates f).keys = g.keys := by
  simp [keys, mapStates, Function.comp_def]

@[simp] theorem mapStates_nodes (f : State → State) (g : Graph) :
    (g.mapStates f).nodes = g.nodes.map f := by
  simp [nodes, mapStates, Function.comp_def]

/-- A graph keeps its edges. -/
theorem mapStates_edges {f : State → State} (h : State.KeepsPlace f) (g : Graph) :
    (g.mapStates f).edges = g.edges := by
  simp only [edges, mapStates_nodes, List.flatMap_map, h.id, h.targets]

/-- A graph keeps its paths. -/
theorem mapStates_reaches {f : State → State} (h : State.KeepsPlace f) (g : Graph) :
    (g.mapStates f).Reaches = g.Reaches := by
  have hleads : (g.mapStates f).Leads = g.Leads := by
    funext a b
    rw [Leads, Leads, mapStates_edges h]
  rw [Reaches, Reaches, hleads]

/-- The states keep their paths to stops. -/
theorem mapStates_canStop {f : State → State} (h : State.KeepsPlace f) (g : Graph) :
    (g.mapStates f).CanStop = g.CanStop := by
  funext id
  rw [CanStop, CanStop, mapStates_reaches h, mapStates_nodes]
  refine propext ⟨?_, ?_⟩
  · rintro ⟨_, hmem, hstop, stop, hid, hpath⟩
    obtain ⟨s, hs, rfl⟩ := List.mem_map.mp hmem
    rw [h.isStop] at hstop
    rw [h.id] at hid
    exact ⟨s, hs, hstop, stop, hid, hpath⟩
  · rintro ⟨s, hs, hstop, stop, hid, hpath⟩
    rw [← h.isStop] at hstop
    rw [← h.id] at hid
    exact ⟨f s, List.mem_map.mpr ⟨s, hs, rfl⟩, hstop, stop, hid, hpath⟩

/-- A graph deserves the same warnings. -/
theorem mapStates_defects {f : State → State} (h : State.KeepsPlace f) (g : Graph) :
    (g.mapStates f).defects = g.defects := by
  funext start
  rw [defects, defects, mapStates_keys, mapStates_reaches h, mapStates_canStop h]

/-- The states stay under their ids. -/
theorem Keyed.mapStates {f : State → State} (h : State.KeepsPlace f) {g : Graph} (hg : g.Keyed) :
    (g.mapStates f).Keyed := by
  constructor
  · intro p hp
    obtain ⟨q, hq, rfl⟩ := List.mem_map.mp hp
    exact (h.id q.2).trans (hg.keyed q hq)
  · rw [mapStates_keys]
    exact hg.nodup

end Graph

end Swimlane
