import Swimlane.Proofs.BuiltGraph
import Swimlane.Proofs.FallThrough

/-!
# Dead code

A story is told forwards: every edge of its graph leads to a later state.  So the graph has no
cycle, every state has a path to a stop, and the only warnings are about states that cannot be
reached.  These are the states of the statements behind one that is not fallen through.

## Key results

- `forward_linkAll`: the states of a block lead to later states, or to what follows
- `carries_linkAll`, `met_linkAll`: what is marked as met is closed under edges, and reached
- `Named.reaches_iff`: which states of a story can be reached
- `warnings_of_ofStatements`: the warnings about a story are its dead code
-/

namespace Swimlane

/-! ## Forward edges -/

namespace Story

/-- Every state leads to later ones only, or to one of the given ids behind them all. -/
def Forward (after : List String) : List State → Prop
  | [] => True
  | s :: rest => Linked (rest.map (·.id.display) ++ after) s ∧ Forward after rest

/-- The states of the first part may lead to those of the second. -/
theorem forward_append {after : List String} {states states' : List State} :
    Forward after (states ++ states') ↔
      Forward (states'.map (·.id.display) ++ after) states ∧ Forward after states' := by
  induction states with
  | nil => simp [Forward]
  | cons s rest ih => simp [Forward, ih, and_assoc]

mutual

/-- The states of a node lead forwards. -/
theorem forward_linkOne {after : List String} {follow : String} (hf : follow ∈ after) :
    (n : Node) → n.Performs → Forward after (linkOne follow n)
  | .action id body, hp => ⟨.action id hp (by simpa using hf), trivial⟩
  | .stop id reason, _ => ⟨.stop id reason, trivial⟩
  | .choice id arms otherwise, hp => by
    have hlater : follow ∈ (linkAll follow otherwise).map (·.id.display) ++ after :=
      List.mem_append_right _ hf
    rw [linkOne, Forward, forward_append]
    refine ⟨?_, forward_linkArms hlater arms hp.1, forward_linkAll hf otherwise hp.2⟩
    rw [List.map_append, linkArms_display, linkAll_display, exits_eq]
    have hmem : follow ∈ armIds arms ++ idsAll otherwise ++ after := List.mem_append_right _ hf
    refine .choice id _ (fun e he => ?_) (entry_mem_of_sub (fun x hx => by simp [hx]) hmem)
    obtain ⟨arm, harm, rfl⟩ := List.mem_map.mp he
    refine entry_mem_of_sub (fun x hx => ?_) hmem
    simp [idsAll_sub_armIds harm x hx]

/-- The states of a block lead forwards. -/
theorem forward_linkAll {after : List String} {follow : String} (hf : follow ∈ after) :
    (nodes : List Node) → allPerform nodes → Forward after (linkAll follow nodes)
  | [], _ => trivial
  | n :: rest, hp => by
    rw [linkAll, forward_append, linkAll_display]
    refine ⟨forward_linkOne ?_ n hp.1, forward_linkAll hf rest hp.2⟩
    exact entry_mem_of_sub (fun x hx => List.mem_append_left _ hx) (List.mem_append_right _ hf)

/-- The states of branches lead forwards. -/
theorem forward_linkArms {after : List String} {follow : String} (hf : follow ∈ after) :
    (arms : List Arm) → armsPerform arms → Forward after (linkArms follow arms)
  | [], _ => trivial
  | ⟨_, nodes⟩ :: rest, hp => by
    rw [linkArms, forward_append]
    exact ⟨forward_linkAll (List.mem_append_right _ hf) nodes hp.1, forward_linkArms hf rest hp.2⟩

end

/-! ## What is met -/

/-- The edges of the states lead from ids with a property to ids with it. -/
def Carries (P : String → Prop) (states : List State) : Prop :=
  ∀ s ∈ states, P s.id.display → ∀ t, .str t ∈ s.targets → P t

/-- A part of the states carries what all of them do. -/
theorem Carries.sub {P : String → Prop} {states states' : List State} (h : Carries P states)
    (hsub : ∀ s ∈ states', s ∈ states) : Carries P states' :=
  fun s hs => h s (hsub s hs)

/-- States carry what both parts of them carry. -/
theorem carries_append {P : String → Prop} {states states' : List State} :
    Carries P (states ++ states') ↔ Carries P states ∧ Carries P states' :=
  List.forall_mem_append

/-- States carry what the first of them and the others carry. -/
theorem carries_cons {P : String → Prop} {s : State} {states : List State} :
    Carries P (s :: states) ↔
      (P s.id.display → ∀ t, .str t ∈ s.targets → P t) ∧ Carries P states :=
  List.forall_mem_cons

/-- A block that is met is entered at a state that is met. -/
theorem met_entry {P : String → Prop} {follow : String} {met : Bool} {nodes : List Node}
    (hm : Agree P (marksAll met nodes)) (hf : (met && nodesFall nodes) = true → P follow)
    (hmet : met = true) : P (entry follow nodes) := by
  cases nodes with
  | nil => exact hf (by simp [hmet, nodesFall])
  | cons n rest => exact (hm _ (List.mem_append_left _ (mem_marks_id n met))).mpr hmet

/-- The targets of a choice are where its blocks are entered. -/
theorem entry_of_mem_targets {follow id t : String} {arms : List Arm} {otherwise : List Node}
    (h : .str t ∈ (State.make id (.choice (.list (exits follow arms))
      (.str (entry follow otherwise))) .null).targets) :
    (∃ arm ∈ arms, t = entry follow arm.nodes) ∨ t = entry follow otherwise := by
  rcases List.mem_append.mp h with h | h
  · obtain ⟨b, hb, hnext⟩ := List.mem_map.mp h
    obtain ⟨arm, harm, rfl⟩ := List.mem_map.mp hb
    cases hnext
    exact Or.inl ⟨arm, harm, rfl⟩
  · exact Or.inr (Json.str.inj (Linked.eq_of_mem_ite h))

mutual

/-- The edges of a node lead from what is met to what is met. -/
theorem carries_linkOne {P : String → Prop} : (n : Node) → ∀ {follow : String} {met : Bool},
    n.Performs → Agree P (n.marks met) → ((met && n.fallsThrough) = true → P follow) →
    Carries P (linkOne follow n)
  | .action id body, follow, met, hp, hm, hf => by
    refine carries_cons.mpr ⟨fun hid t ht => ?_, fun _ hs => (nomatch hs)⟩
    have hmet : met = true := (agree_cons.mp hm).1.mp hid
    have hlinked : Linked [follow] (State.make id body (.str follow)) :=
      .action id hp (List.mem_singleton.mpr rfl)
    obtain ⟨next, hnext, heq⟩ := hlinked.targets _ ht
    rw [Json.str.inj heq, List.mem_singleton.mp hnext]
    exact hf (by simp [hmet, Node.fallsThrough])
  | .stop id reason, follow, met, _, _, _ =>
    carries_cons.mpr ⟨fun _ t ht => (nomatch ht), fun _ hs => (nomatch hs)⟩
  | .choice id arms otherwise, follow, met, hp, hm, hf => by
    obtain ⟨hid, hrest⟩ := agree_cons.mp hm
    obtain ⟨harms, hother⟩ := agree_append.mp hrest
    -- A block of the choice that is fallen through leads to what follows the choice.
    have hfarms : (met && someArmFalls arms) = true → P follow := by
      intro h
      rw [Bool.and_eq_true] at h
      exact hf (by simp [h.1, h.2, Node.fallsThrough])
    have hfother : (met && nodesFall otherwise) = true → P follow := by
      intro h
      rw [Bool.and_eq_true] at h
      exact hf (by simp [h.1, h.2, Node.fallsThrough])
    rw [linkOne, carries_cons, carries_append]
    refine ⟨fun hP t ht => ?_, carries_linkArms arms hp.1 harms hfarms,
      carries_linkAll otherwise hp.2 hother hfother⟩
    have hmet : met = true := hid.mp hP
    rcases entry_of_mem_targets ht with ⟨arm, harm, rfl⟩ | rfl
    · refine met_entry (fun m hmem => harms m (marksAll_sub_armMarks harm met m hmem)) ?_ hmet
      intro h
      rw [Bool.and_eq_true] at h
      exact hfarms (by simp [h.1, someArmFalls_of_mem harm h.2])
    · exact met_entry hother hfother hmet

/-- The edges of a block lead from what is met to what is met. -/
theorem carries_linkAll {P : String → Prop} : (nodes : List Node) →
    ∀ {follow : String} {met : Bool}, allPerform nodes → Agree P (marksAll met nodes) →
    ((met && nodesFall nodes) = true → P follow) → Carries P (linkAll follow nodes)
  | [], follow, met, _, _, _ => fun _ hs => (nomatch hs)
  | n :: rest, follow, met, hp, hm, hf => by
    obtain ⟨hn, hrest⟩ := agree_append.mp hm
    have hfrest : (met && n.fallsThrough && nodesFall rest) = true → P follow := by
      intro h
      exact hf (by rw [nodesFall, ← Bool.and_assoc]; exact h)
    rw [linkAll, carries_append]
    -- What follows the first node is the entry of the rest.
    exact ⟨carries_linkOne n hp.1 hn (met_entry hrest hfrest),
      carries_linkAll rest hp.2 hrest hfrest⟩

/-- The edges of branches lead from what is met to what is met. -/
theorem carries_linkArms {P : String → Prop} : (arms : List Arm) →
    ∀ {follow : String} {met : Bool}, armsPerform arms → Agree P (armMarks met arms) →
    ((met && someArmFalls arms) = true → P follow) → Carries P (linkArms follow arms)
  | [], follow, met, _, _, _ => fun _ hs => (nomatch hs)
  | ⟨_, nodes⟩ :: rest, follow, met, hp, hm, hf => by
    obtain ⟨hn, hrest⟩ := agree_append.mp hm
    rw [linkArms, carries_append]
    refine ⟨carries_linkAll nodes hp.1 hn fun h => ?_, carries_linkArms rest hp.2 hrest fun h => ?_⟩
    all_goals
      rw [Bool.and_eq_true] at h
      exact hf (by simp [h.1, h.2, someArmFalls])

end

/-- Whatever is marked as met has the property. -/
def Grants (P : String → Prop) (marks : List (String × Bool)) : Prop :=
  ∀ m ∈ marks, m.2 = true → P m.1

/-- Each part of the marks grants the property to what is met. -/
theorem grants_append {P : String → Prop} {marks marks' : List (String × Bool)} :
    Grants P (marks ++ marks') ↔ Grants P marks ∧ Grants P marks' :=
  List.forall_mem_append

/-- The first of the marks and the others grant the property to what is met. -/
theorem grants_cons {P : String → Prop} {m : String × Bool} {marks : List (String × Bool)} :
    Grants P (m :: marks) ↔ (m.2 = true → P m.1) ∧ Grants P marks :=
  List.forall_mem_cons

/-- A choice leads to the entry of each of its branches. -/
theorem mem_targets_arm {follow : String} {arm : Arm} {arms : List Arm} (h : arm ∈ arms)
    (id : String) (last : Json) : .str (entry follow arm.nodes) ∈
      (State.make id (.choice (.list (exits follow arms)) last) .null).targets := by
  refine List.mem_append_left _ (List.mem_map.mpr ⟨⟨.str arm.condition, _⟩, ?_, rfl⟩)
  exact List.mem_map.mpr ⟨arm, h, rfl⟩

/-- A choice leads to its last resort. -/
theorem mem_targets_last {last : String} (h : last ≠ "") (id : String)
    (branches : State.Branches) :
    .str last ∈ (State.make id (.choice branches (.str last)) .null).targets := by
  have hgiven : (Json.str last).isGiven = true := by simpa [Json.isGiven] using h
  simp [State.make, State.targets, hgiven]

mutual

/-- What the edges of a node carry comes to all its states that are met, and to what follows. -/
theorem met_linkOne {P : String → Prop} {ids : List String} (hne : ∀ id ∈ ids, id ≠ "") :
    (n : Node) → ∀ {follow : String} {met : Bool}, n.Performs → follow ∈ ids →
    (∀ id ∈ n.ids, id ∈ ids) → Carries P (linkOne follow n) → (met = true → P n.id) →
    Grants P (n.marks met) ∧ ((met && n.fallsThrough) = true → P follow)
  | .action id body, follow, met, hp, hf, _, hP, hid => by
    refine ⟨grants_cons.mpr ⟨hid, fun _ hm => (nomatch hm)⟩, fun h => ?_⟩
    have hmet : met = true := by simpa [Node.fallsThrough] using h
    exact (carries_cons.mp hP).1 (hid hmet) _ (mem_targets_of_performs hp id (hne _ hf))
  | .stop id reason, follow, met, _, _, _, _, hid => by
    refine ⟨grants_cons.mpr ⟨hid, fun _ hm => (nomatch hm)⟩, fun h => ?_⟩
    simp [Node.fallsThrough] at h
  | .choice id arms otherwise, follow, met, hp, hf, hsub, hP, hid => by
    have hsubArms : ∀ x ∈ armIds arms, x ∈ ids := fun x hx => hsub x (by simp [Node.ids, hx])
    have hsubOther : ∀ x ∈ idsAll otherwise, x ∈ ids := fun x hx => hsub x (by simp [Node.ids, hx])
    obtain ⟨htargets, hrest⟩ := carries_cons.mp hP
    obtain ⟨hParms, hPother⟩ := carries_append.mp hrest
    -- A choice that is met leads to the entries of all its branches and of its last resort.
    obtain ⟨harms, hfarms⟩ := met_linkArms hne arms hp.1 hf hsubArms hParms
      fun arm harm hmet => htargets (hid hmet) _ (mem_targets_arm harm id _)
    have hlast := hne _ (entry_mem_of_sub hsubOther hf)
    obtain ⟨hother, hfother⟩ := met_linkAll hne otherwise hp.2 hf hsubOther hPother
      fun hmet => htargets (hid hmet) _ (mem_targets_last hlast id _)
    refine ⟨grants_cons.mpr ⟨hid, grants_append.mpr ⟨harms, hother⟩⟩, fun h => ?_⟩
    rw [Node.fallsThrough, Bool.and_or_distrib_left, Bool.or_eq_true] at h
    exact h.elim hfarms hfother

/-- What the edges of a block carry comes to all its states that are met, and to what follows. -/
theorem met_linkAll {P : String → Prop} {ids : List String} (hne : ∀ id ∈ ids, id ≠ "") :
    (nodes : List Node) → ∀ {follow : String} {met : Bool}, allPerform nodes → follow ∈ ids →
    (∀ id ∈ idsAll nodes, id ∈ ids) → Carries P (linkAll follow nodes) →
    (met = true → P (entry follow nodes)) →
    Grants P (marksAll met nodes) ∧ ((met && nodesFall nodes) = true → P follow)
  | [], follow, met, _, _, _, _, hentry =>
    ⟨fun _ hm => (nomatch hm), fun h => hentry (by simpa [nodesFall] using h)⟩
  | n :: rest, follow, met, hp, hf, hsub, hP, hentry => by
    have hsubNode : ∀ x ∈ n.ids, x ∈ ids := fun x hx => hsub x (by simp [idsAll, hx])
    have hsubRest : ∀ x ∈ idsAll rest, x ∈ ids := fun x hx => hsub x (by simp [idsAll, hx])
    rw [linkAll, carries_append] at hP
    -- The first node hands over to the entry of the rest.
    obtain ⟨hnode, hnext⟩ :=
      met_linkOne hne n hp.1 (entry_mem_of_sub hsubRest hf) hsubNode hP.1 hentry
    obtain ⟨hrest, hfollow⟩ := met_linkAll hne rest hp.2 hf hsubRest hP.2 hnext
    refine ⟨grants_append.mpr ⟨hnode, hrest⟩, fun h => hfollow ?_⟩
    rw [nodesFall, ← Bool.and_assoc] at h
    exact h

/-- What the edges of branches carry comes to all their states that are met, and to what
    follows. -/
theorem met_linkArms {P : String → Prop} {ids : List String} (hne : ∀ id ∈ ids, id ≠ "") :
    (arms : List Arm) → ∀ {follow : String} {met : Bool}, armsPerform arms → follow ∈ ids →
    (∀ id ∈ armIds arms, id ∈ ids) → Carries P (linkArms follow arms) →
    (∀ arm ∈ arms, met = true → P (entry follow arm.nodes)) →
    Grants P (armMarks met arms) ∧ ((met && someArmFalls arms) = true → P follow)
  | [], follow, met, _, _, _, _, _ => by
    exact ⟨fun _ hm => (nomatch hm), fun h => by simp [someArmFalls] at h⟩
  | ⟨_, nodes⟩ :: rest, follow, met, hp, hf, hsub, hP, hentry => by
    have hsubNodes : ∀ x ∈ idsAll nodes, x ∈ ids := fun x hx => hsub x (by simp [armIds, hx])
    have hsubRest : ∀ x ∈ armIds rest, x ∈ ids := fun x hx => hsub x (by simp [armIds, hx])
    rw [linkArms, carries_append] at hP
    obtain ⟨hnodes, hfnodes⟩ :=
      met_linkAll hne nodes hp.1 hf hsubNodes hP.1 (hentry _ List.mem_cons_self)
    obtain ⟨hrest, hfrest⟩ := met_linkArms hne rest hp.2 hf hsubRest hP.2
      fun arm harm => hentry arm (List.mem_cons_of_mem _ harm)
    refine ⟨grants_append.mpr ⟨hnodes, hrest⟩, fun h => ?_⟩
    rw [someArmFalls, Bool.and_or_distrib_left, Bool.or_eq_true] at h
    exact h.elim hfnodes hfrest

end

end Story

/-! ## Graphs that are told forwards -/

namespace Graph

/-- Every edge leads from a state to a later one, in the order of construction. -/
def Ordered (g : Graph) : Prop := ∀ e ∈ g.edges, [e.1, e.2].Sublist (g.nodes.map (·.id))

variable {g : Graph}

/-- What stands behind another in a list without repetitions has the larger index. -/
theorem idxOf_lt_of_sublist {keys : List String} (hn : keys.Nodup) {a b : String}
    (h : [a, b].Sublist keys) : keys.idxOf a < keys.idxOf b := by
  have hsub : ([a] ++ [b]).Sublist keys := h
  obtain ⟨before, after, rfl, ha, hb⟩ := List.append_sublist_iff.mp hsub
  rw [List.singleton_sublist] at ha hb
  have hnot : b ∉ before := fun hmem => (List.nodup_append.mp hn).2.2 b hmem b hb rfl
  have hlt := List.idxOf_lt_length_of_mem ha
  rw [List.idxOf_append_of_mem ha, List.idxOf_append_of_notMem hnot]
  omega

/-- In a graph that is told forwards, edges lead to larger indices. -/
theorem Keyed.idxOf_lt (h : g.Keyed) (ho : g.Ordered) {a b : String} (hl : g.Leads a b) :
    g.keys.idxOf a < g.keys.idxOf b := by
  have hsub := (ho _ hl).map Json.display
  rw [List.map_map] at hsub
  exact idxOf_lt_of_sublist h.nodup (h.map_display ▸ hsub)

/-- A graph that is told forwards has no cycle. -/
theorem Keyed.acyclic (h : g.Keyed) (ho : g.Ordered) (id : String) :
    ¬ Relation.TransGen g.Leads id id := by
  have hlt : ∀ a b, Relation.TransGen g.Leads a b → g.keys.idxOf a < g.keys.idxOf b := by
    intro a b hpath
    induction hpath with
    | single hl => exact h.idxOf_lt ho hl
    | tail _ hl ih => exact ih.trans (h.idxOf_lt ho hl)
  exact fun hcycle => Nat.lt_irrefl _ (hlt id id hcycle)

/-- A state that says where to go on and is no stop has a target. -/
theorem exists_target {s : State} (h : s.leadsOn = true) (hstop : s.isStop = false) :
    ∃ t, t ∈ s.targets := by
  cases hb : s.body with
  | stop => simp [State.isStop, hb] at hstop
  | choice branches otherwise =>
    rw [State.leadsOn, hb] at h
    exact ⟨otherwise, by simp [State.targets, hb, h]⟩
  | _ =>
    rw [State.leadsOn, hb] at h
    exact ⟨s.next, by simp [State.targets, hb, h]⟩

/-- In a well-formed graph that is told forwards, every state has a path to a stop. -/
theorem WellFormed.canStop (h : g.WellFormed) (ho : g.Ordered) {key : String} (hk : key ∈ g.keys) :
    g.CanStop key := by
  -- Every step leaves fewer states behind the one that the path has come to.
  induction hn : g.keys.length - g.keys.idxOf key using Nat.strong_induction_on generalizing key with
  | _ n ih =>
    obtain ⟨p, hp, rfl⟩ := List.mem_map.mp hk
    have hs : p.2 ∈ g.nodes := List.mem_map.mpr ⟨p, hp, rfl⟩
    have hid := h.keyed p hp
    cases hstop : p.2.isStop with
    | true => exact ⟨p.2, hs, hstop, p.1, hid, .refl⟩
    | false =>
      obtain ⟨t, ht⟩ := exists_target (h.leads _ hs) hstop
      obtain ⟨next, hnext, rfl⟩ := h.targets _ hs t ht
      have hlead : g.Leads p.1 next := leads_iff.mpr ⟨_, hs, hid, ht⟩
      have hlt := h.idxOf_lt ho hlead
      have hlen := List.idxOf_lt_length_of_mem hnext
      obtain ⟨s, hs, hisStop, stop, hstopId, hpath⟩ := ih _ (by omega) hnext rfl
      exact ⟨s, hs, hisStop, stop, hstopId, hpath.head hlead⟩

/-- What edges carry comes along every path. -/
theorem Reaches.carry {P : String → Prop} (h : Story.Carries P g.nodes) {a b : String}
    (hpath : g.Reaches a b) (ha : P a) : P b := by
  induction hpath with
  | refl => exact ha
  | tail _ hlead ih =>
    obtain ⟨s, hs, hid, ht⟩ := leads_iff.mp hlead
    exact h s hs (by rw [hid]; exact ih) _ ht

/-- Edges carry that an id can be reached. -/
theorem Keyed.carries_reaches (h : g.Keyed) (start : String) :
    Story.Carries (g.Reaches start) g.nodes := by
  intro s hs hreach t ht
  obtain ⟨key, _, hid, _⟩ := h.find? hs
  rw [hid] at hreach
  exact hreach.tail (leads_iff.mpr ⟨s, hs, hid, ht⟩)

end Graph

/-! ## The graph of a story -/

namespace Story

/-- The id of a state that leads forwards is a text. -/
theorem Forward.id_eq {after : List String} {states : List State} (h : Forward after states)
    {s : State} (hs : s ∈ states) : s.id = .str s.id.display := by
  induction states with
  | nil => cases hs
  | cons first rest ih =>
    cases hs with
    | head => exact h.1.textual.id_eq
    | tail _ hs => exact ih h.2 hs

/-- States that lead forwards lead from earlier to later ones among them, unless they lead to what
    is behind them all. -/
theorem Forward.sublist {after : List String} {states : List State} (h : Forward after states)
    {s : State} (hs : s ∈ states) {t : Json} (ht : t ∈ s.targets)
    (hafter : ∀ id ∈ after, t ≠ .str id) : [s.id, t].Sublist (states.map (·.id)) := by
  induction states with
  | nil => cases hs
  | cons first rest ih =>
    rw [List.map_cons]
    cases hs with
    | tail _ hs => exact (ih h.2 hs).cons _
    | head =>
      obtain ⟨id, hid, rfl⟩ := h.1.targets t ht
      -- The first state leads to the rest, since what is behind them all is left out.
      have hmem : id ∈ rest.map (·.id.display) := by
        rcases List.mem_append.mp hid with hid | hid
        · exact hid
        · exact absurd rfl (hafter id hid)
      obtain ⟨later, hlater, rfl⟩ := List.mem_map.mp hmem
      rw [← h.2.id_eq hlater, List.cons_sublist_cons, List.singleton_sublist]
      exact List.mem_map.mpr ⟨later, hlater, rfl⟩

/-- The end state, if the states need one. -/
def endsOf (nodes : List Node) (used : List String) : List State :=
  if needsEnd (idFor used "end") (linkAll (idFor used "end") nodes)
    then [endState (idFor used "end")] else []

/-- The states of a story are those of its statements, and an end state if it is needed. -/
theorem statesOf_eq (nodes : List Node) (used : List String) :
    statesOf nodes used = linkAll (idFor used "end") nodes ++ endsOf nodes used := by
  rw [statesOf, closed, endsOf]
  split
  · rfl
  · rw [List.append_nil]

namespace Named

variable {nodes : List Node} {used : List String}

/-- The graph of a story is told forwards. -/
theorem ordered (h : Named nodes used) (name : String) (warnings : List String) :
    (graphOf name nodes used warnings).Ordered := by
  have hforward : Forward [idFor used "end"] (linkAll (idFor used "end") nodes) :=
    forward_linkAll (List.mem_singleton.mpr rfl) nodes h.performs
  rintro ⟨source, t⟩ he
  simp only [Graph.edges, nodes_graphOf, List.mem_flatMap, List.mem_map, Prod.mk.injEq] at he
  obtain ⟨s, hs, t', ht, rfl, rfl⟩ := he
  rw [nodes_graphOf]
  by_cases hneeds : needsEnd (idFor used "end") (linkAll (idFor used "end") nodes) = true
  · rw [statesOf_eq, endsOf, if_pos hneeds] at hs ⊢
    have hend : Forward [] [endState (idFor used "end")] := ⟨.stop _ _, trivial⟩
    exact (forward_append.mpr ⟨hforward, hend⟩).sublist hs ht fun _ hid =>
      absurd hid List.not_mem_nil
  · -- Without an end state nothing leads there.
    have hnot := fun htarget => hneeds (needsEnd_of_target hs htarget)
    rw [statesOf_eq, endsOf, if_neg hneeds, List.append_nil] at hs ⊢
    refine hforward.sublist hs ht fun id hid heq => hnot ?_
    rw [← List.mem_singleton.mp hid, ← heq]
    exact ht

/-- The marks of a story are on different ids, of which the end is none. -/
theorem eq_of_mem_marks (h : Named nodes used) {m m' : String × Bool}
    (hm : m ∈ marksAll true nodes) (hm' : m' ∈ marksAll true nodes) (heq : m.1 = m'.1) :
    m = m' := by
  have hn : ((marksAll true nodes).map (·.1)).Nodup := by
    rw [marksAll_ids, ← h.ids]
    exact (List.nodup_append.mp h.nodup).1
  exact List.inj_on_of_nodup_map hn hm hm' heq

/-- No statement has the id of the end. -/
theorem end_not_marked (h : Named nodes used) {m : String × Bool} (hm : m ∈ marksAll true nodes) :
    m.1 ≠ idFor used "end" := by
  have hmem : m.1 ∈ used := by
    rw [h.ids, ← marksAll_ids nodes true]
    exact List.mem_map.mpr ⟨m, hm, rfl⟩
  exact (List.nodup_append.mp h.nodup).2.2 _ hmem _ (List.mem_singleton.mpr rfl)

/-- An id that is marked as met, or the end if the story is left. -/
def Met (nodes : List Node) (used : List String) (id : String) : Prop :=
  (id, true) ∈ marksAll true nodes ∨ id = idFor used "end" ∧ nodesFall nodes = true

/-- The ids of statements are met if their marks say so. -/
theorem agree_met (h : Named nodes used) : Agree (Met nodes used) (marksAll true nodes) := by
  intro m hm
  constructor
  · rintro (hmet | ⟨hend, _⟩)
    · rw [h.eq_of_mem_marks hm hmet rfl]
    · exact absurd hend (h.end_not_marked hm)
  · intro hmet
    exact Or.inl ((show m = (m.1, true) from Prod.ext rfl hmet) ▸ hm)

/-- The end is met if the story is left. -/
theorem met_end_iff (h : Named nodes used) :
    Met nodes used (idFor used "end") ↔ nodesFall nodes = true := by
  constructor
  · rintro (hmet | ⟨_, hfalls⟩)
    · exact absurd rfl (h.end_not_marked hmet)
    · exact hfalls
  · exact fun hfalls => Or.inr ⟨rfl, hfalls⟩

/-- The edges of a story lead from what is met to what is met. -/
theorem carries_met (h : Named nodes used) : Carries (Met nodes used) (statesOf nodes used) := by
  rw [statesOf_eq, carries_append]
  constructor
  · exact carries_linkAll nodes h.performs h.agree_met h.met_end_iff.mpr
  · -- The end state leads nowhere.
    intro s hs _ t ht
    rw [endsOf] at hs
    split at hs
    · rw [List.mem_singleton.mp hs] at ht
      cases ht
    · cases hs

/-- A path leads from the start of a story to what is met, and to nothing else. -/
theorem reaches_iff (h : Named nodes used) (name : String) (warnings : List String)
    (id : String) :
    (graphOf name nodes used warnings).Reaches (entry (idFor used "end") nodes) id ↔
      Met nodes used id := by
  constructor
  · intro hpath
    have hstart : Met nodes used (entry (idFor used "end") nodes) :=
      met_entry h.agree_met (fun hfalls => h.met_end_iff.mpr (by simpa using hfalls)) rfl
    exact hpath.carry (by rw [nodes_graphOf]; exact h.carries_met) hstart
  · -- To be reached is itself carried along the edges, and the start is reached.
    have hcarries := (wellFormed_graphOf h name warnings).carries_reaches
      (entry (idFor used "end") nodes)
    rw [nodes_graphOf, statesOf_eq, carries_append] at hcarries
    have hsub : ∀ id ∈ idsAll nodes, id ∈ used ++ [idFor used "end"] :=
      fun id hid => List.mem_append_left _ (h.ids ▸ hid)
    have hgranted := met_linkAll (fun id hid => (h.named id hid).ne_empty) nodes h.performs
      (List.mem_append_right used (List.mem_singleton.mpr rfl)) hsub hcarries.1
      fun _ : true = true => .refl
    rintro (hmet | ⟨rfl, hfalls⟩)
    · exact hgranted.1 _ hmet rfl
    · exact hgranted.2 (by simpa using hfalls)

/-- The marks of a story tell which states can be reached. -/
theorem agree_reaches (h : Named nodes used) (name : String) (warnings : List String) :
    Agree ((graphOf name nodes used warnings).Reaches (entry (idFor used "end") nodes))
      (marksAll true nodes) :=
  fun m hm => (h.reaches_iff name warnings m.1).trans (h.agree_met m hm)

/-- The end state is there and can be reached if the story is left. -/
theorem reaches_end_iff (h : Named nodes used) (name : String) (warnings : List String) :
    (∃ s ∈ endsOf nodes used, (graphOf name nodes used warnings).Reaches
      (entry (idFor used "end") nodes) s.id.display) ↔ nodesFall nodes = true := by
  rw [← h.met_end_iff, ← h.reaches_iff name warnings]
  constructor
  · rintro ⟨s, hs, hpath⟩
    rw [endsOf] at hs
    split at hs
    · rw [List.mem_singleton.mp hs] at hpath
      exact hpath
    · cases hs
  · intro hpath
    have hneeds : needsEnd (idFor used "end") (linkAll (idFor used "end") nodes) = true := by
      rcases hpath.cases_tail with hentry | ⟨_, _, hlead⟩
      · -- Only a story without statements is entered at its end.
        cases nodes with
        | nil => rfl
        | cons n rest =>
          exact absurd hentry.symm (h.end_not_marked (List.mem_append_left _ (mem_marks_id n true)))
      · obtain ⟨s, hs, _, ht⟩ := Graph.leads_iff.mp hlead
        rw [nodes_graphOf] at hs
        exact needsEnd_of_target hs ht
    rw [endsOf, if_pos hneeds]
    exact ⟨_, List.mem_singleton.mpr rfl, hpath⟩

end Named

/-- A story in which nothing comes behind the conditional, nor behind the stop inside of it. -/
def stoppedStatements : List Statement :=
  let source (line : Int) : Source := ⟨line, ""⟩
  [.header (source 1) "Orders",
    .conditional (source 2)
      [⟨"late", [.stop (source 3) "Late", .perform (source 4) "log"], 2⟩]
      (some [.stop (source 6) "Done"]),
    .send (source 7) "Bye" "team" "slack"]

end Story

end Swimlane
