import Swimlane.Proofs.Links
import Swimlane.Proofs.Meaning

/-!
# Linked states run like their statements

The two passes from statements to states keep the meaning of a story.  Naming keeps it because a
node runs like its statement.  Linking keeps it because walking the states of a block from its
entry does what the block does, and then goes on at the state that follows the block.

## Key results

- `nameAll_run`: the nodes of a block run like its statements
- `walk_linkAll`: the walk through the states of a block runs like its nodes
- `linkAll_falls`: a block that is left at its end has a state that leads to what follows
-/

namespace Swimlane

/-! ## Nodes -/

/-- The actions that a body performs. -/
def State.Body.deeds : State.Body → List Action
  | .userTask prompt assignee _ => [.ask prompt.display assignee.display]
  | .task action => [.perform action.display]
  | .send channel recipient message =>
    [.send channel.display recipient.display message.display]
  | .choice .. => []
  | .stop _ => []

namespace Story

mutual

/-- Runs a node. -/
def Node.run (holds : Valuation) (trace : List Action) : Node → Progress
  | .action _ body => .onward (trace ++ body.deeds)
  | .stop _ reason => .ended ⟨trace, reason⟩
  | .choice _ arms otherwise => runArms holds trace (runNodes holds trace otherwise) arms

/-- Runs nodes one after the other, until one of them ends the run. -/
def runNodes (holds : Valuation) (trace : List Action) : List Node → Progress
  | [] => .onward trace
  | n :: rest =>
    match n.run holds trace with
    | .onward trace => runNodes holds trace rest
    | .ended ending => .ended ending

/-- Runs the nodes of the first branch whose condition holds. -/
def runArms (holds : Valuation) (trace : List Action) (last : Progress) : List Arm → Progress
  | [] => last
  | ⟨condition, nodes⟩ :: rest =>
    if holds trace condition then runNodes holds trace nodes
    else runArms holds trace last rest

end

mutual

/-- The node of a statement runs like the statement. -/
theorem nameOne_run (holds : Valuation) : (s : Statement) → ∀ {used used' node},
    nameOne used s = .ok (node, used') → ∀ trace, node.run holds trace = runOne holds trace s
  | .ask .., used, used', node, h, trace => by cases h; rfl
  | .perform .., used, used', node, h, trace => by cases h; rfl
  | .send .., used, used', node, h, trace => by cases h; rfl
  | .stop .., used, used', node, h, trace => by cases h; rfl
  | .conditional _ branches none, used, used', node, h, trace => by
    rw [nameOne] at h
    obtain ⟨⟨arms, used₁⟩, hb, h⟩ := Except.bind_eq_ok.mp h
    cases h
    rw [Node.run, runOne, runNodes, nameBranches_run holds branches hb]
  | .conditional _ branches (some body), used, used', node, h, trace => by
    rw [nameOne] at h
    obtain ⟨⟨arms, used₁⟩, hb, h⟩ := Except.bind_eq_ok.mp h
    obtain ⟨⟨nodes, used₂⟩, ha, h⟩ := Except.bind_eq_ok.mp h
    cases h
    rw [Node.run, runOne, nameAll_run holds body ha, nameBranches_run holds branches hb]

/-- The nodes of a block run like its statements. -/
theorem nameAll_run (holds : Valuation) : (body : List Statement) → ∀ {used used' nodes},
    nameAll used body = .ok (nodes, used') →
    ∀ trace, runNodes holds trace nodes = runAll holds trace body
  | [], used, used', nodes, h, trace => by cases h; rfl
  | s :: rest, used, used', nodes, h, trace => by
    rw [nameAll] at h
    obtain ⟨⟨node, used₁⟩, hs, h⟩ := Except.bind_eq_ok.mp h
    obtain ⟨⟨more, used₂⟩, hr, h⟩ := Except.bind_eq_ok.mp h
    cases h
    rw [runNodes, runAll, nameOne_run holds s hs]
    cases runOne holds trace s with
    | onward t => exact nameAll_run holds rest hr t
    | ended e => rfl

/-- The nodes of branches run like their statements. -/
theorem nameBranches_run (holds : Valuation) : (branches : List Branch) → ∀ {used used' arms},
    nameBranches used branches = .ok (arms, used') →
    ∀ trace last, runArms holds trace last arms = runBranches holds trace last branches
  | [], used, used', arms, h, trace, last => by cases h; rfl
  | ⟨condition, body, _⟩ :: rest, used, used', arms, h, trace, last => by
    rw [nameBranches] at h
    obtain ⟨⟨nodes, used₁⟩, hs, h⟩ := Except.bind_eq_ok.mp h
    obtain ⟨⟨more, used₂⟩, hr, h⟩ := Except.bind_eq_ok.mp h
    cases h
    rw [runArms, runBranches, nameAll_run holds body hs, nameBranches_run holds rest hr]

end

end Story

/-! ## Walks -/

namespace Graph

/-- A walk through a state that sends the run on. -/
theorem walk_leads {g : Graph} {holds : Valuation} {s : State} {id : String}
    {trace trace' : List Action} {next : Json} (count : Nat) (hfind : g.find? id = some s)
    (hstep : s.step holds trace = .leads trace' next) :
    g.walk holds (count + 1) trace (.str id) = g.walk holds count trace' next := by
  simp only [walk, Json.asId?, Option.bind_some, hfind, Option.bind_eq_bind, hstep]

/-- A walk that comes to a state that ends the run. -/
theorem walk_ends {g : Graph} {holds : Valuation} {s : State} {id : String}
    {trace : List Action} {ending : Ending} (count : Nat) (hfind : g.find? id = some s)
    (hstep : s.step holds trace = .ends ending) :
    g.walk holds (count + 1) trace (.str id) = some ending := by
  simp only [walk, Json.asId?, Option.bind_some, hfind, Option.bind_eq_bind, hstep]

/-- A walk that has come to its end does not need a larger bound. -/
theorem walk_mono {g : Graph} {holds : Valuation} {count : Nat} {trace : List Action}
    {place : Json} {ending : Ending} (h : g.walk holds count trace place = some ending) (k : Nat) :
    g.walk holds (count + k) trace place = some ending := by
  induction count generalizing trace place with
  | zero => cases h
  | succ n ih =>
    -- Rewrite the bound: (n + 1) + k = (n + k) + 1
    rw [show n + 1 + k = (n + k) + 1 from by omega]
    simp only [walk, Option.bind_eq_bind] at h ⊢
    cases hs : place.asId?.bind g.find? with
    | none => rw [hs] at h; cases h
    | some s =>
      simp only [hs, Option.bind_some] at h ⊢
      cases hstep : s.step holds trace with
      | ends e => simp only [hstep] at h ⊢; exact h
      | leads t next => simp only [hstep] at h ⊢; exact ih h

/-- The states are stored in the graph under their ids. -/
def Stores (g : Graph) (states : List State) : Prop :=
  ∀ s ∈ states, ∃ id, s.id = .str id ∧ g.find? id = some s

/-- A part of stored states is stored. -/
theorem Stores.sub {g : Graph} {states states' : List State} (h : g.Stores states)
    (hsub : ∀ s ∈ states', s ∈ states) : g.Stores states' :=
  fun s hs => h s (hsub s hs)

/-- The end of the run that stands as told and goes on, if it does, at the given place. -/
def resume (g : Graph) (holds : Valuation) (count : Nat) (place : Json) : Progress → Option Ending
  | .onward trace => g.walk holds count trace place
  | .ended ending => some ending

end Graph

namespace Story

/-- The step of a state that performs an action. -/
theorem step_of_performs {body : State.Body} (h : body.Performs) (holds : Valuation)
    (trace : List Action) (id : String) (next : Json) :
    (State.make id body next).step holds trace = .leads (trace ++ body.deeds) next := by
  cases h <;> rfl

/-- Where a choice with the given branches sends a run. -/
def chosen (holds : Valuation) (trace : List Action) (follow : String) (last : Json)
    (arms : List Arm) : Json :=
  match (exits follow arms).find? fun b => holds trace b.condition.display with
  | some b => b.next
  | none => last

/-- The step of a choice. -/
theorem step_choice (holds : Valuation) (trace : List Action) (id follow : String)
    (last : Json) (arms : List Arm) :
    (State.make id (.choice (.list (exits follow arms)) last) .null).step holds trace =
      .leads trace (chosen holds trace follow last arms) := by
  simp only [State.step, State.make, State.Branches.items, chosen]
  cases (exits follow arms).find? fun b => holds trace b.condition.display <;> rfl

/-- A choice looks at its branches in order. -/
theorem chosen_cons (holds : Valuation) (trace : List Action) (follow condition : String)
    (last : Json) (nodes : List Node) (rest : List Arm) :
    chosen holds trace follow last (⟨condition, nodes⟩ :: rest) =
      if holds trace condition then .str (entry follow nodes)
      else chosen holds trace follow last rest := by
  simp only [chosen, exits, List.map_cons, List.find?_cons, Json.display]
  cases holds trace condition <;> rfl

mutual

/-- The walk through the states of a node runs like the node. -/
theorem walk_linkOne {g : Graph} {holds : Valuation} {ending : Ending} : (n : Node) →
    ∀ {follow : String} {trace : List Action} {count : Nat}, n.Performs →
    g.Stores (linkOne follow n) →
    g.resume holds count (.str follow) (n.run holds trace) = some ending →
    g.walk holds (n.ids.length + count) trace (.str n.id) = some ending
  | .action id body, follow, trace, count, hp, hst, h => by
    obtain ⟨id', hid, hfind⟩ := hst _ List.mem_cons_self
    cases hid
    rw [Node.ids, List.length_singleton, Nat.add_comm 1 count]
    exact (Graph.walk_leads count hfind (step_of_performs hp holds trace id _)).trans h
  | .stop id reason, follow, trace, count, _, hst, h => by
    obtain ⟨id', hid, hfind⟩ := hst _ List.mem_cons_self
    cases hid
    rw [Node.ids, List.length_singleton, Nat.add_comm 1 count]
    exact (Graph.walk_ends count hfind rfl).trans h
  | .choice id arms otherwise, follow, trace, count, hp, hst, h => by
    rw [linkOne] at hst
    obtain ⟨id', hid, hfind⟩ := hst _ List.mem_cons_self
    cases hid
    have harms : g.Stores (linkArms follow arms) := hst.sub fun s hs => by simp [hs]
    have hother : g.Stores (linkAll follow otherwise) := hst.sub fun s hs => by simp [hs]
    rw [Node.ids, List.length_cons, List.length_append, Nat.add_right_comm]
    rw [Node.id, Graph.walk_leads _ hfind (step_choice holds trace id follow _ arms)]
    refine walk_linkArms arms hp.1 harms h fun hlast => ?_
    exact walk_linkAll otherwise hp.2 hother hlast

/-- The walk through the states of a block, from its entry, runs like its nodes. -/
theorem walk_linkAll {g : Graph} {holds : Valuation} {ending : Ending} : (nodes : List Node) →
    ∀ {follow : String} {trace : List Action} {count : Nat}, allPerform nodes →
    g.Stores (linkAll follow nodes) →
    g.resume holds count (.str follow) (runNodes holds trace nodes) = some ending →
    g.walk holds ((idsAll nodes).length + count) trace (.str (entry follow nodes)) = some ending
  | [], follow, trace, count, _, _, h => by
    rw [idsAll, List.length_nil, Nat.zero_add]; exact h
  | n :: rest, follow, trace, count, hp, hst, h => by
    rw [linkAll] at hst
    have hn : g.Stores (linkOne (entry follow rest) n) := hst.sub fun s hs => by simp [hs]
    have hrest : g.Stores (linkAll follow rest) := hst.sub fun s hs => by simp [hs]
    rw [idsAll, List.length_append, Nat.add_assoc]
    -- The first node is followed by the rest of the block, whose states are counted in.
    refine walk_linkOne n hp.1 hn ?_
    rw [runNodes] at h
    cases hrun : n.run holds trace with
    | onward t => rw [hrun] at h; exact walk_linkAll rest hp.2 hrest h
    | ended e => rw [hrun] at h; exact h

/-- The walk from the place that a choice sends the run to runs like the branches of the choice.
    Of the last resort it is asked only that its walk runs like the last resort does. -/
theorem walk_linkArms {g : Graph} {holds : Valuation} {ending : Ending} : (arms : List Arm) →
    ∀ {follow : String} {trace : List Action} {count size : Nat} {last : Progress} {place : Json},
    armsPerform arms → g.Stores (linkArms follow arms) →
    g.resume holds count (.str follow) (runArms holds trace last arms) = some ending →
    (g.resume holds count (.str follow) last = some ending →
      g.walk holds (size + count) trace place = some ending) →
    g.walk holds ((armIds arms).length + size + count) trace
      (chosen holds trace follow place arms) = some ending
  | [], follow, trace, count, size, last, place, _, _, h, hlast => by
    rw [armIds, List.length_nil, Nat.zero_add]; exact hlast h
  | ⟨condition, nodes⟩ :: rest, follow, trace, count, size, last, place, hp, hst, h, hlast => by
    rw [linkArms] at hst
    have hnodes : g.Stores (linkAll follow nodes) := hst.sub fun s hs => by simp [hs]
    have hrest : g.Stores (linkArms follow rest) := hst.sub fun s hs => by simp [hs]
    rw [armIds, List.length_append, chosen_cons]
    rw [runArms] at h
    by_cases hc : holds trace condition = true
    · rw [if_pos hc] at h ⊢
      have hw := Graph.walk_mono (walk_linkAll nodes hp.1 hnodes h) ((armIds rest).length + size)
      rw [show (idsAll nodes).length + (armIds rest).length + size + count =
        (idsAll nodes).length + count + ((armIds rest).length + size) from by omega]
      exact hw
    · rw [if_neg hc] at h ⊢
      have hw := Graph.walk_mono (walk_linkArms rest hp.2 hrest h hlast) (idsAll nodes).length
      rw [show (idsAll nodes).length + (armIds rest).length + size + count =
        (armIds rest).length + size + count + (idsAll nodes).length from by omega]
      exact hw

end

/-! ## Blocks that are left at their end -/

/-- A state of the list leads to the given state. -/
def LeadsTo (id : String) (states : List State) : Prop := ∃ s ∈ states, .str id ∈ s.targets

/-- Among more states there still is one that leads there. -/
theorem LeadsTo.mono {id : String} {states states' : List State} (h : LeadsTo id states)
    (hsub : ∀ s ∈ states, s ∈ states') : LeadsTo id states' := by
  obtain ⟨s, hs, ht⟩ := h
  exact ⟨s, hsub s hs, ht⟩

/-- An action leads to the state behind it. -/
theorem mem_targets_of_performs {body : State.Body} (h : body.Performs) (id : String)
    {next : String} (hne : next ≠ "") : .str next ∈ (State.make id body (.str next)).targets := by
  have hg : (Json.str next).isGiven = true := by simpa [Json.isGiven] using hne
  cases h <;> simp [State.make, State.targets, hg]

/-- A choice with an empty branch, or without a last resort, leads to what follows it. -/
theorem mem_targets_choice {follow : String} (hne : follow ≠ "") (id : String) {arms : List Arm}
    {otherwise : List Node} (h : (∃ arm ∈ arms, arm.nodes = []) ∨ otherwise = []) :
    .str follow ∈ (State.make id (.choice (.list (exits follow arms))
      (.str (entry follow otherwise))) .null).targets := by
  simp only [State.make, State.targets, State.Branches.items, exits, List.map_map,
    List.mem_append, List.mem_map, Function.comp_apply]
  rcases h with ⟨arm, harm, hnil⟩ | rfl
  · exact Or.inl ⟨arm, harm, by rw [hnil]; rfl⟩
  · have hg : (Json.str follow).isGiven = true := by simpa [Json.isGiven] using hne
    right
    rw [entry, if_pos hg]
    exact List.mem_singleton.mpr rfl

mutual

/-- A node that a run leaves has a state that leads to what follows the node. -/
theorem linkOne_falls {holds : Valuation} {follow : String} (hne : follow ≠ "") : (n : Node) →
    ∀ {trace trace' : List Action}, n.Performs → n.run holds trace = .onward trace' →
    LeadsTo follow (linkOne follow n)
  | .action id body, trace, trace', hp, _ =>
    ⟨_, List.mem_cons_self, mem_targets_of_performs hp id hne⟩
  | .stop .., trace, trace', _, h => by cases h
  | .choice id arms otherwise, trace, trace', hp, h => by
    rw [Node.run] at h
    rw [linkOne]
    rcases linkArms_falls hne arms hp.1 h with hnil | hleads | hlast
    · exact ⟨_, List.mem_cons_self, mem_targets_choice hne id (Or.inl hnil)⟩
    · exact hleads.mono fun s hs => by simp [hs]
    · rcases linkAll_falls hne otherwise hp.2 hlast with hnil | hleads
      · exact ⟨_, List.mem_cons_self, mem_targets_choice hne id (Or.inr hnil)⟩
      · exact hleads.mono fun s hs => by simp [hs]

/-- A block that a run leaves at its end is empty or has a state that leads to what follows. -/
theorem linkAll_falls {holds : Valuation} {follow : String} (hne : follow ≠ "") :
    (nodes : List Node) → ∀ {trace trace' : List Action}, allPerform nodes →
    runNodes holds trace nodes = .onward trace' →
    nodes = [] ∨ LeadsTo follow (linkAll follow nodes)
  | [], trace, trace', _, _ => Or.inl rfl
  | n :: rest, trace, trace', hp, h => by
    right
    rw [linkAll]
    rw [runNodes] at h
    cases hrun : n.run holds trace with
    | ended e => rw [hrun] at h; cases h
    | onward t =>
      rw [hrun] at h
      rcases linkAll_falls hne rest hp.2 h with rfl | hleads
      · exact (linkOne_falls hne n hp.1 hrun).mono fun s hs => by simp [entry, hs]
      · exact hleads.mono fun s hs => by simp [hs]

/-- If a run leaves the branches of a conditional, one of them is empty, a state in them leads to
    what follows, or the last resort is left. -/
theorem linkArms_falls {holds : Valuation} {follow : String} (hne : follow ≠ "") :
    (arms : List Arm) → ∀ {trace trace' : List Action} {last : Progress}, armsPerform arms →
    runArms holds trace last arms = .onward trace' →
    (∃ arm ∈ arms, arm.nodes = []) ∨ LeadsTo follow (linkArms follow arms) ∨
      last = .onward trace'
  | [], trace, trace', last, _, h => Or.inr (Or.inr h)
  | ⟨condition, nodes⟩ :: rest, trace, trace', last, hp, h => by
    rw [linkArms]
    rw [runArms] at h
    by_cases hc : holds trace condition = true
    · rw [if_pos hc] at h
      rcases linkAll_falls hne nodes hp.1 h with hnil | hleads
      · exact Or.inl ⟨_, List.mem_cons_self, hnil⟩
      · exact Or.inr (Or.inl (hleads.mono fun s hs => by simp [hs]))
    · rw [if_neg hc] at h
      rcases linkArms_falls hne rest hp.2 h with ⟨arm, harm, hnil⟩ | hleads | hlast
      · exact Or.inl ⟨arm, List.mem_cons_of_mem _ harm, hnil⟩
      · exact Or.inr (Or.inl (hleads.mono fun s hs => by simp [hs]))
      · exact Or.inr (Or.inr hlast)

end

end Story

end Swimlane
