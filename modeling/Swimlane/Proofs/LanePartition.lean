import Swimlane.Proofs.LayoutParts

/-!
# Lanes are a partition of the states

States enter lanes one after the other.  A state enters the lane whose name is, but for letter case,
the name of the actor of the state; if there is none, it opens a new lane behind all others.  So at
any time the lanes hold the states that have entered, grouped by their actors and in their order.

## Key results

- `enter_cases`: what one state does to the lanes
- `Partitioned.enter`, `partitioned_of_enterAll`: what one state and what all states preserve
- `lanes_partition`: the lanes of a flow
-/

namespace Swimlane.Diagram

/-! ## One state -/

/-- A state joins a lane, or it opens one. -/
theorem enter_cases (name : String) (stateId : Json) (earlier lanes : List Lane) :
    (∃ front lane back, lanes = front ++ lane :: back ∧ lowered lane.name = lowered name ∧
      enter name stateId earlier lanes =
        (front ++ { lane with stateIds := lane.stateIds ++ [stateId] } :: back, lane.id)) ∨
    ((∀ lane ∈ lanes, lowered lane.name ≠ lowered name) ∧
      enter name stateId earlier lanes =
        (lanes ++ [⟨laneId (earlier ++ lanes) name, name, (earlier ++ lanes).length, [stateId]⟩],
          laneId (earlier ++ lanes) name)) := by
  induction lanes generalizing earlier with
  | nil =>
    right
    simp [enter]
  | cons first rest ih =>
    unfold enter
    split
    · rename_i hname
      exact Or.inl ⟨[], first, rest, rfl, hname, rfl⟩
    · rename_i hname
      cases ih (earlier ++ [first]) with
      | inl hjoins =>
        obtain ⟨front, lane, back, hrest, hlane, hr⟩ := hjoins
        left
        exact ⟨first :: front, lane, back, by rw [hrest]; rfl, hlane, by rw [hr]; rfl⟩
      | inr hopens =>
        obtain ⟨hnone, hr⟩ := hopens
        right
        refine ⟨fun lane hlane => ?_, by rw [hr]; simp⟩
        cases List.mem_cons.mp hlane with
        | inl heq => exact heq ▸ hname
        | inr hlane => exact hnone lane hlane

/-! ## All states -/

/-- The name of the actor of a state, if the given actors are known. -/
def nameOf (known : List String) (default : Json) (s : State) : Except Misfit String :=
  (actorOf known default s).map (laneName default)

/-- Lanes hold the given states, which come with the names of their actors. -/
structure Partitioned (members : List (State × String)) (lanes : List Lane) : Prop where
  index : lanes.map (·.index) = List.range lanes.length
  names : (lanes.map fun lane => lowered lane.name).Nodup
  states : ∀ lane ∈ lanes, lane.stateIds =
    (members.filter fun m => lowered m.2 == lowered lane.name).map (·.1.id)
  nonempty : ∀ lane ∈ lanes, lane.stateIds ≠ []
  covered : ∀ m ∈ members, ∃ lane ∈ lanes, lowered lane.name = lowered m.2
  first : (lanes.filterMap (·.stateIds.head?)).Sublist (members.map (·.1.id))

theorem partitioned_nil : Partitioned [] [] := by
  refine ⟨rfl, List.nodup_nil, ?_, ?_, ?_, List.Sublist.refl _⟩
  all_goals simp

section Partitioned

variable {members : List (State × String)} {lanes front back : List Lane} {lane : Lane}
  {s : State} {name : String}

/-- Lanes have different names, so a name tells the lane. -/
theorem Partitioned.eq_of_name (h : Partitioned members lanes) {l m : Lane} (hl : l ∈ lanes)
    (hm : m ∈ lanes) (hname : lowered l.name = lowered m.name) : l = m :=
  List.inj_on_of_nodup_map h.names hl hm hname

/-- A state that joins a lane goes behind the states that are there. -/
theorem Partitioned.join (h : Partitioned members (front ++ lane :: back))
    (hname : lowered lane.name = lowered name) :
    Partitioned (members ++ [(s, name)])
      (front ++ { lane with stateIds := lane.stateIds ++ [s.id] } :: back) := by
  have hlane : lane ∈ front ++ lane :: back := by simp
  -- In all other lanes the state does not appear.
  have hothers : ∀ l ∈ front ++ back, lowered name ≠ lowered l.name := by
    intro l hl heq
    have hnames := h.names
    rw [List.map_append, List.map_cons, List.nodup_middle, List.nodup_cons] at hnames
    apply hnames.1
    rw [← List.map_append]
    exact List.mem_map.mpr ⟨l, hl, by rw [hname, heq]⟩
  constructor
  · simpa using h.index
  · simpa using h.names
  · intro l hl
    rw [List.filter_append, List.map_append]
    have hcases : l = { lane with stateIds := lane.stateIds ++ [s.id] } ∨ l ∈ front ++ back := by
      simp only [List.mem_append, List.mem_cons] at hl ⊢
      tauto
    cases hcases with
    | inl heq =>
      subst heq
      rw [h.states lane hlane]
      simp [hname]
    | inr hl =>
      have hmem : l ∈ front ++ lane :: back := by
        simp only [List.mem_append, List.mem_cons] at hl ⊢
        tauto
      rw [h.states l hmem]
      simp [hothers l hl]
  · intro l hl
    simp only [List.mem_append, List.mem_cons] at hl
    rcases hl with hl | rfl | hl
    · exact h.nonempty l (by simp [hl])
    · simp
    · exact h.nonempty l (by simp [hl])
  · intro m hm
    -- The lane keeps its name, and all others are as they were.
    have hnamed : ∀ l ∈ front ++ lane :: back, ∃ l' ∈
        front ++ { lane with stateIds := lane.stateIds ++ [s.id] } :: back, l'.name = l.name := by
      intro l hl
      simp only [List.mem_append, List.mem_cons] at hl
      rcases hl with hl | rfl | hl
      · exact ⟨l, by simp [hl], rfl⟩
      · exact ⟨_, List.mem_append_right _ List.mem_cons_self, rfl⟩
      · exact ⟨l, by simp [hl], rfl⟩
    have hcovered : ∃ l ∈ front ++ lane :: back, lowered l.name = lowered m.2 := by
      cases List.mem_append.mp hm with
      | inl hm => exact h.covered m hm
      | inr hm =>
        rw [List.mem_singleton.mp hm]
        exact ⟨lane, hlane, hname⟩
    obtain ⟨l, hl, hkey⟩ := hcovered
    obtain ⟨l', hl', heq⟩ := hnamed l hl
    exact ⟨l', hl', by rw [heq, hkey]⟩
  · have hhead : (lane.stateIds ++ [s.id]).head? = lane.stateIds.head? :=
      List.head?_append_of_ne_nil _ (h.nonempty lane hlane)
    have hsame : (front ++ { lane with stateIds := lane.stateIds ++ [s.id] } :: back).filterMap
        (·.stateIds.head?) = (front ++ lane :: back).filterMap (·.stateIds.head?) := by
      simp only [List.filterMap_append, List.filterMap_cons, hhead]
    rw [hsame, List.map_append]
    exact h.first.trans (List.sublist_append_left _ _)

/-- A state that opens a lane is the first one there. -/
theorem Partitioned.opened (h : Partitioned members lanes)
    (hname : ∀ lane ∈ lanes, lowered lane.name ≠ lowered name) (id : String) :
    Partitioned (members ++ [(s, name)]) (lanes ++ [⟨id, name, lanes.length, [s.id]⟩]) := by
  constructor
  · simp [h.index, List.range_succ]
  · rw [List.map_append, List.nodup_append]
    refine ⟨h.names, by simp, fun x hx y hy heq => ?_⟩
    obtain ⟨l, hl, rfl⟩ := List.mem_map.mp hx
    simp only [List.map_cons, List.map_nil, List.mem_singleton] at hy
    exact hname l hl (heq.trans hy)
  · intro l hl
    rw [List.filter_append, List.map_append]
    cases List.mem_append.mp hl with
    | inl hl =>
      rw [h.states l hl]
      simp [(hname l hl).symm]
    | inr hl =>
      -- No state that has entered before belongs to the new lane.
      have hnone : members.filter (fun m => lowered m.2 == lowered name) = [] := by
        rw [List.filter_eq_nil_iff]
        intro m hm hkey
        obtain ⟨l', hl', hcover⟩ := h.covered m hm
        exact hname l' hl' (hcover.trans (by simpa using hkey))
      rw [List.mem_singleton.mp hl]
      simp [hnone]
  · intro l hl
    cases List.mem_append.mp hl with
    | inl hl => exact h.nonempty l hl
    | inr hl =>
      rw [List.mem_singleton.mp hl]
      exact List.cons_ne_nil _ _
  · intro m hm
    cases List.mem_append.mp hm with
    | inl hm =>
      obtain ⟨l, hl, hkey⟩ := h.covered m hm
      exact ⟨l, List.mem_append_left _ hl, hkey⟩
    | inr hm =>
      rw [List.mem_singleton.mp hm]
      exact ⟨_, List.mem_append_right _ List.mem_cons_self, rfl⟩
  · rw [List.filterMap_append, List.map_append]
    exact h.first.append (List.Sublist.refl _)

/-- Whatever lane a state enters, the lanes stay a partition. -/
theorem Partitioned.enter (h : Partitioned members lanes) (s : State) (name : String) :
    Partitioned (members ++ [(s, name)]) (Diagram.enter name s.id [] lanes).1 := by
  cases enter_cases name s.id [] lanes with
  | inl hjoins =>
    obtain ⟨front, lane, back, rfl, hname, heq⟩ := hjoins
    rw [heq]
    exact h.join hname
  | inr hopens =>
    obtain ⟨hname, heq⟩ := hopens
    rw [heq]
    exact h.opened hname _

/-- A lane that is there after a state has entered was there before, or is a new one. -/
theorem mem_enter {l : Lane} (hl : l ∈ (Diagram.enter name s.id [] lanes).1) :
    (∃ l' ∈ lanes, l'.id = l.id ∧ l'.name = l.name) ∨
      l.name = name ∧ ∀ lane ∈ lanes, lowered lane.name ≠ lowered name := by
  cases enter_cases name s.id [] lanes with
  | inl hjoins =>
    obtain ⟨front, lane, back, rfl, _, heq⟩ := hjoins
    rw [heq, List.mem_append, List.mem_cons] at hl
    left
    rcases hl with hl | rfl | hl
    · exact ⟨l, by simp [hl], rfl, rfl⟩
    · exact ⟨lane, by simp, rfl, rfl⟩
    · exact ⟨l, by simp [hl], rfl, rfl⟩
  | inr hopens =>
    obtain ⟨hname, heq⟩ := hopens
    rw [heq, List.mem_append, List.mem_singleton] at hl
    cases hl with
    | inl hl => exact Or.inl ⟨l, hl, rfl, rfl⟩
    | inr hl => exact Or.inr ⟨by rw [hl], hname⟩

/-- The lane that a state enters has the name of its actor. -/
theorem exists_entered_lane (name : String) (id : Json) (lanes : List Lane) :
    ∃ l ∈ (Diagram.enter name id [] lanes).1, l.id = (Diagram.enter name id [] lanes).2 ∧
      lowered l.name = lowered name := by
  cases enter_cases name id [] lanes with
  | inl hjoins =>
    obtain ⟨front, lane, back, _, hname, heq⟩ := hjoins
    rw [heq]
    exact ⟨_, List.mem_append_right _ List.mem_cons_self, rfl, hname⟩
  | inr hopens =>
    rw [hopens.2]
    exact ⟨_, List.mem_append_right _ List.mem_cons_self, rfl, rfl⟩

end Partitioned

/-- States with texts for ids are assigned to the lanes of their actors, in their order. -/
structure Attached (members : List (State × String)) (a : Assignment) : Prop where
  texts : ∀ m ∈ members, m.1.id = .str m.1.id.display
  entries : ∃ list : List (String × String), a.2 = (list.map fun p => (.str p.1, p.2)) ∧
    list.map (·.1) = members.map (·.1.id.display)
  lane : ∀ m ∈ members, ∀ lane ∈ a.1, lowered lane.name = lowered m.2 →
    Assoc.get? m.1.id a.2 = some lane.id

theorem attached_nil : Attached [] ([], []) :=
  ⟨by simp, ⟨[], rfl, rfl⟩, by simp⟩

section Attached

variable {members : List (State × String)} {a : Assignment}

/-- One more state is assigned to the lane that it enters. -/
theorem Attached.enter (h : Attached members a) (hp : Partitioned members a.1) {s : State}
    (hid : s.id = .str s.id.display) (hfresh : s.id.display ∉ members.map (·.1.id.display))
    (name : String) :
    Attached (members ++ [(s, name)]) ((Diagram.enter name s.id [] a.1).1,
      Assoc.put s.id (Diagram.enter name s.id [] a.1).2 a.2) := by
  obtain ⟨list, hlist, hkeys⟩ := h.entries
  have hput : Assoc.put s.id (Diagram.enter name s.id [] a.1).2 a.2 =
      (list ++ [(s.id.display, (Diagram.enter name s.id [] a.1).2)]).map
        fun p => (.str p.1, p.2) := by
    rw [hid, hlist, Assoc.put_str, ← hid, Assoc.put_of_not_mem]
    rw [hkeys]
    exact hfresh
  constructor
  · intro m hm
    cases List.mem_append.mp hm with
    | inl hm => exact h.texts m hm
    | inr hm => rw [List.mem_singleton.mp hm]; exact hid
  · exact ⟨_, hput, by simp [hkeys]⟩
  · intro m hm l hl hkey
    cases List.mem_append.mp hm with
    | inl hm =>
      have hne : s.id.display ≠ m.1.id.display := fun heq =>
        hfresh (heq ▸ List.mem_map.mpr ⟨m, hm, rfl⟩)
      -- The lane of a state that entered before is no new one.
      have hlane : ∃ l' ∈ a.1, l'.id = l.id ∧ l'.name = l.name := by
        cases mem_enter hl with
        | inl hold => exact hold
        | inr hnew =>
          obtain ⟨l', hl', hcover⟩ := hp.covered m hm
          rw [hnew.1] at hkey
          exact absurd (hcover.trans hkey.symm) (hnew.2 l' hl')
      obtain ⟨l', hl', hsame, hname⟩ := hlane
      have hget := h.lane m hm l' hl' (by rw [hname, hkey])
      rw [h.texts m hm, hlist, Assoc.get?_str] at hget
      rw [hid, hlist, Assoc.put_str, h.texts m hm, Assoc.get?_str, Assoc.get?_put,
        if_neg (by simpa using hne), hget, hsame]
    | inr hm =>
      rw [List.mem_singleton.mp hm] at hkey ⊢
      -- Only one lane has the name of the actor.
      obtain ⟨l', hl', hsame, hname⟩ := exists_entered_lane name s.id a.1
      have heq := (hp.enter s name).eq_of_name hl hl' (hkey.trans hname.symm)
      rw [heq, hsame, hid, hlist, Assoc.put_str, Assoc.get?_str, Assoc.get?_put,
        if_pos (beq_self_eq_true _)]

/-- The states are assigned in their order. -/
theorem Attached.map_fst (h : Attached members a) : a.2.map (·.1) = members.map (·.1.id) := by
  obtain ⟨list, hlist, hkeys⟩ := h.entries
  have hstr := congrArg (List.map Json.str) hkeys
  rw [List.map_map, List.map_map] at hstr
  rw [hlist, List.map_map]
  exact hstr.trans (List.map_congr_left fun m hm => (h.texts m hm).symm)

/-- Two states are assigned to one lane if their actors have the same name but for letter case. -/
theorem Attached.same_lane_iff (h : Attached members a) (hp : Partitioned members a.1)
    (hn : (a.1.map (·.id)).Nodup) {m n : State × String} (hm : m ∈ members) (hn' : n ∈ members) :
    Assoc.get? m.1.id a.2 = Assoc.get? n.1.id a.2 ↔ lowered m.2 = lowered n.2 := by
  obtain ⟨lane, hl, hkey⟩ := hp.covered m hm
  obtain ⟨lane', hl', hkey'⟩ := hp.covered n hn'
  rw [h.lane m hm lane hl hkey, h.lane n hn' lane' hl' hkey', Option.some.injEq]
  constructor
  · intro hid
    have heq := List.inj_on_of_nodup_map hn hl hl' hid
    rw [← hkey, heq, hkey']
  · intro hsame
    rw [hp.eq_of_name hl hl' (hkey.trans (hsame.trans hkey'.symm))]

/-- States that enter one after the other are grouped by their actors and assigned to their
    lanes. -/
theorem partitioned_of_enterAll {known : List String} {default : Json} {states : List State}
    {a' : Assignment} (hp : Partitioned members a.1) (ha : Attached members a)
    (hids : ∀ s ∈ states, s.id = .str s.id.display)
    (hn : (members.map (·.1.id.display) ++ states.map (·.id.display)).Nodup)
    (he : enterAll known default a states = .ok a') :
    ∃ more : List (State × String), more.map (·.1) = states ∧
      (∀ m ∈ more, nameOf known default m.1 = .ok m.2) ∧
      Partitioned (members ++ more) a'.1 ∧ Attached (members ++ more) a' := by
  induction states generalizing members a with
  | nil =>
    cases he
    exact ⟨[], rfl, by simp, by simpa using hp, by simpa using ha⟩
  | cons s rest ih =>
    rw [enterAll] at he
    obtain ⟨actor, hactor, he⟩ := Except.bind_eq_ok.mp he
    have hid := hids s List.mem_cons_self
    have hname : s.id.isName = true := by rw [hid]; rfl
    simp only [hname] at he
    have hfresh : s.id.display ∉ members.map (·.1.id.display) := by
      rw [List.map_cons, List.nodup_middle, List.nodup_cons] at hn
      exact fun hmem => hn.1 (List.mem_append_left _ hmem)
    have hrest : ((members ++ [(s, laneName default actor)]).map (·.1.id.display) ++
        rest.map (·.id.display)).Nodup := by
      simpa using hn
    obtain ⟨more, hmore, hnames, hp', ha'⟩ := ih (hp.enter s (laneName default actor))
      (ha.enter hp hid hfresh (laneName default actor))
      (fun t ht => hids t (List.mem_cons_of_mem _ ht)) hrest he
    refine ⟨(s, laneName default actor) :: more, by rw [List.map_cons, hmore], ?_,
      by simpa using hp', by simpa using ha'⟩
    intro m hm
    cases List.mem_cons.mp hm with
    | inl heq => rw [heq, nameOf, hactor]; rfl
    | inr hm => exact hnames m hm

end Attached

/-! ## The lanes of a flow -/

/-- The name of the actor of a state: the known actors are those that are asked somewhere in the
    flow, and a few more. -/
def actorName (g : Graph) (default : String) (s : State) : Except Misfit String := do
  let actors ← askedActors g.nodes
  nameOf (knownActors ++ actors) (.str default) s

/-- The lanes of a flow whose states have different texts for ids. -/
theorem partitioned_of_assignLanes {g : Graph} {default : String} {a : Assignment}
    {keys : List String} (hkeys : g.nodes.map (·.id) = keys.map .str) (hn : keys.Nodup)
    (h : assignLanes g (.str default) = .ok a) :
    ∃ members : List (State × String), members.map (·.1) = g.nodes ∧
      (∀ m ∈ members, actorName g default m.1 = .ok m.2) ∧
      Partitioned members a.1 ∧ Attached members a := by
  obtain ⟨actors, hactors, h⟩ := Except.bind_eq_ok.mp h
  have hids : ∀ s ∈ g.nodes, s.id = .str s.id.display := by
    intro s hs
    have hmem := List.mem_map_of_mem (f := (·.id)) hs
    rw [hkeys] at hmem
    obtain ⟨key, _, hkey⟩ := List.mem_map.mp hmem
    rw [← hkey]
    rfl
  have hdisplay : g.nodes.map (·.id.display) = keys := by
    have hmap := congrArg (List.map Json.display) hkeys
    rw [List.map_map, List.map_map] at hmap
    exact hmap.trans (List.map_id' _)
  obtain ⟨members, hmembers, hnames, hp, ha⟩ := partitioned_of_enterAll partitioned_nil attached_nil
    hids (by rw [List.map_nil, List.nil_append, hdisplay]; exact hn) h
  refine ⟨members, hmembers, fun m hm => ?_, hp, ha⟩
  rw [actorName, hactors]
  exact hnames m hm

section Members

variable {members : List (State × String)} {lanes : List Lane}

/-- A lane lists the states whose actors have its name. -/
theorem Partitioned.mem_stateIds_iff (h : Partitioned members lanes)
    (hn : (members.map (·.1.id)).Nodup) {m : State × String} (hm : m ∈ members) {lane : Lane}
    (hl : lane ∈ lanes) : m.1.id ∈ lane.stateIds ↔ lowered lane.name = lowered m.2 := by
  rw [h.states lane hl]
  constructor
  · intro hmem
    obtain ⟨m', hm', hid⟩ := List.mem_map.mp hmem
    obtain ⟨hm', hkey⟩ := List.mem_filter.mp hm'
    rw [List.inj_on_of_nodup_map hn hm' hm hid] at hkey
    exact (beq_iff_eq.mp hkey).symm
  · intro hkey
    exact List.mem_map.mpr ⟨m, List.mem_filter.mpr ⟨hm, beq_iff_eq.mpr hkey.symm⟩, rfl⟩

/-- A lane lists its states in their order. -/
theorem Partitioned.sublist (h : Partitioned members lanes) {lane : Lane} (hl : lane ∈ lanes) :
    lane.stateIds.Sublist (members.map (·.1.id)) := by
  rw [h.states lane hl]
  exact List.filter_sublist.map _

end Members

/-- The lanes of a flow are a partition of its states: ids and names tell lanes apart, every state
    is listed once and in order, and is assigned to the lane that lists it; states share a lane if
    their actors have the same name but for letter case; and the lanes are in the order of their
    first states. -/
structure IsPartition (g : Graph) (default : String) (a : Assignment) : Prop where
  ids : (a.1.map (·.id)).Nodup
  names : (a.1.map fun lane => lowered lane.name).Nodup
  index : a.1.map (·.index) = List.range a.1.length
  nonempty : ∀ lane ∈ a.1, lane.stateIds ≠ []
  ordered : ∀ lane ∈ a.1, lane.stateIds.Sublist (g.nodes.map (·.id))
  disjoint : a.1.Pairwise fun l m => l.stateIds.Disjoint m.stateIds
  once : (a.1.flatMap (·.stateIds)).Perm (g.nodes.map (·.id))
  entries : a.2.map (·.1) = g.nodes.map (·.id)
  assigned : ∀ s ∈ g.nodes, ∃ lane ∈ a.1, Assoc.get? s.id a.2 = some lane.id ∧
    ∀ l ∈ a.1, s.id ∈ l.stateIds ↔ l = lane
  shared : ∀ s ∈ g.nodes, ∀ t ∈ g.nodes, ∃ m n, actorName g default s = .ok m ∧
    actorName g default t = .ok n ∧
    (Assoc.get? s.id a.2 = Assoc.get? t.id a.2 ↔ lowered m = lowered n)
  first : (a.1.filterMap (·.stateIds.head?)).Sublist (g.nodes.map (·.id))

/-- The lanes of a flow whose states are stored under their ids are a partition of the states. -/
theorem isPartition_of_assignLanes {g : Graph} (h : g.Keyed) {default : String} {a : Assignment}
    (hlanes : assignLanes g (.str default) = .ok a) : IsPartition g default a := by
  obtain ⟨members, hmembers, hnames, hp, hattached⟩ :=
    partitioned_of_assignLanes h.ids h.nodup hlanes
  have hlaneIds := (grouped_of_assignLanes hlanes).nodup
  have hids : members.map (·.1.id) = g.nodes.map (·.id) := by
    rw [← hmembers, List.map_map]
    rfl
  have hnodup : (g.nodes.map (·.id)).Nodup := by
    rw [h.ids]
    exact h.nodup.map fun _ _ heq => Json.str.inj heq
  have hmem : ∀ s ∈ g.nodes, ∃ name, (s, name) ∈ members := by
    intro s hs
    rw [← hmembers] at hs
    obtain ⟨⟨s', name⟩, hm, rfl⟩ := List.mem_map.mp hs
    exact ⟨name, hm⟩
  have honce := (grouped_of_assignLanes hlanes).members
  constructor
  · exact hlaneIds
  · exact hp.names
  · exact hp.index
  · exact hp.nonempty
  · exact fun lane hl => hids ▸ hp.sublist hl
  · exact (List.nodup_flatMap.mp (honce.nodup_iff.mpr hnodup)).2
  · exact honce
  · exact hattached.map_fst.trans hids
  · intro s hs
    obtain ⟨name, hm⟩ := hmem s hs
    obtain ⟨lane, hl, hkey⟩ := hp.covered _ hm
    refine ⟨lane, hl, hattached.lane _ hm lane hl hkey, fun l hl' => ?_⟩
    rw [hp.mem_stateIds_iff (hids ▸ hnodup) hm hl']
    constructor
    · exact fun hkey' => hp.eq_of_name hl' hl (hkey'.trans hkey.symm)
    · exact fun heq => heq ▸ hkey
  · intro s hs t ht
    obtain ⟨m, hm⟩ := hmem s hs
    obtain ⟨n, hn⟩ := hmem t ht
    exact ⟨m, n, hnames _ hm, hnames _ hn, hattached.same_lane_iff hp hlaneIds hm hn⟩
  · exact hids ▸ hp.first

/-- If the states of a flow are stored under their ids and texts tell who acts in them, the lanes
    are a partition of the states. -/
theorem lanes_partition {g : Graph} (h : g.Keyed) (ha : ∀ s ∈ g.nodes, s.Attributed)
    (default : String) : ∃ a, assignLanes g (.str default) = .ok a ∧ IsPartition g default a := by
  obtain ⟨a, hlanes, _⟩ := exists_assignLanes h ha default
  exact ⟨a, hlanes, isPartition_of_assignLanes h hlanes⟩

/-- A flow with two actors whose names differ in an accent only, and with an actor that is asked in
    small letters and acts in capitals. -/
def accentedFlow : Graph :=
  { name := "Sign"
    start := .str "first"
    states := [
      ("first", State.make "first" (.userTask (.str "p") (.str "josé") none) (.str "work")),
      ("work", State.make "work" (.task (.str "print it")) (.str "second")),
      ("second", State.make "second" (.userTask (.str "p") (.str "{Josè}") none) (.str "sign")),
      ("sign", State.make "sign" (.task (.str "The JOSÉ, too, signs")) (.str "stop")),
      ("stop", State.make "stop" (.stop (.str "")) .null)]
    warnings := [] }

/-- The accent is lost in the ids of their lanes, but the lanes are not. -/
theorem lanes_partition_accentedFlow : accentedFlow.Keyed ∧
    (∀ s ∈ accentedFlow.nodes, s.Attributed) ∧
    ∃ a, assignLanes accentedFlow (.str "System") = .ok a ∧ IsPartition accentedFlow "System" a ∧
      a.1.map (fun lane => (lane.id, lane.name, lane.stateIds.map Json.display)) =
        [("Lane_jos", "José", ["first", "sign"]), ("Lane_system", "System", ["work", "stop"]),
          ("Lane_jos_2", "Josè", ["second"])] := by
  have hkeyed : accentedFlow.Keyed := by
    constructor
    · simp [accentedFlow, State.make]
    · decide
  have hattributed : ∀ s ∈ accentedFlow.nodes, s.Attributed := by
    simp [accentedFlow, Graph.nodes, State.make, State.Attributed]
  have hlanes : (assignLanes accentedFlow (.str "System")).map (fun a => a.1.map fun lane =>
      (lane.id, lane.name, lane.stateIds.map Json.display)) =
      .ok [("Lane_jos", "José", ["first", "sign"]), ("Lane_system", "System", ["work", "stop"]),
        ("Lane_jos_2", "Josè", ["second"])] := by decide +kernel
  obtain ⟨a, ha, hpartition⟩ := lanes_partition hkeyed hattributed "System"
  rw [ha] at hlanes
  exact ⟨hkeyed, hattributed, a, ha, hpartition, Except.ok.inj hlanes⟩

end Swimlane.Diagram
