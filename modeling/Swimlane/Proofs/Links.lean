import Swimlane.Proofs.StateNames
import Swimlane.Proofs.Textual

/-!
# The links between states

Linking turns nodes into states and gives every state its targets: states of the same story, or
the state that follows.

## Key results

- `linkAll_ids`: the states have the ids of the nodes, in order
- `linkAll_linked`: what the states look like, and where they lead
- `Linked.textual`: they hold texts
- `Linked.targets`: their targets are states of the block, or the state that follows
-/

namespace Swimlane.Story

/-- Where a block is entered: at what follows, or at one of its nodes. -/
theorem entry_mem (follow : String) (nodes : List Node) :
    entry follow nodes = follow ∨ entry follow nodes ∈ idsAll nodes := by
  cases nodes with
  | nil => exact Or.inl rfl
  | cons n rest =>
    right
    cases n <;> simp [entry, Node.id, idsAll, Node.ids]

mutual

/-- The states of a node have the ids of the node. -/
theorem linkOne_ids (follow : String) : (n : Node) →
    (linkOne follow n).map (·.id) = n.ids.map .str
  | .action .. => rfl
  | .stop .. => rfl
  | .choice id arms otherwise => by
    simp only [linkOne, Node.ids, List.map_cons, List.map_append, linkArms_ids follow arms,
      linkAll_ids follow otherwise]
    rfl

/-- The states of a block have the ids of its nodes. -/
theorem linkAll_ids (follow : String) : (nodes : List Node) →
    (linkAll follow nodes).map (·.id) = (idsAll nodes).map .str
  | [] => rfl
  | n :: rest => by
    simp only [linkAll, idsAll, List.map_append, linkOne_ids _ n, linkAll_ids follow rest]

/-- The states of branches have the ids of the nodes in them. -/
theorem linkArms_ids (follow : String) : (arms : List Arm) →
    (linkArms follow arms).map (·.id) = (armIds arms).map .str
  | [] => rfl
  | ⟨_, nodes⟩ :: rest => by
    simp only [linkArms, armIds, List.map_append, linkAll_ids follow nodes, linkArms_ids follow rest]

end

/-- The ids of the states of a block as texts. -/
theorem linkAll_display (follow : String) (nodes : List Node) :
    (linkAll follow nodes).map (·.id.display) = idsAll nodes := by
  have hids := congrArg (List.map Json.display) (linkAll_ids follow nodes)
  rw [List.map_map, List.map_map] at hids
  exact hids.trans (List.map_id' _)

/-- The ids of the states of branches as texts. -/
theorem linkArms_display (follow : String) (arms : List Arm) :
    (linkArms follow arms).map (·.id.display) = armIds arms := by
  have hids := congrArg (List.map Json.display) (linkArms_ids follow arms)
  rw [List.map_map, List.map_map] at hids
  exact hids.trans (List.map_id' _)

/-- There are as many states as ids. -/
theorem length_linkAll (follow : String) (nodes : List Node) :
    (linkAll follow nodes).length = (idsAll nodes).length := by
  have h := congrArg List.length (linkAll_ids follow nodes)
  rwa [List.length_map, List.length_map] at h

/-! ## The shape of linked states -/

/-- A state with texts that leads to states with the given ids only. -/
inductive Linked (ids : List String) : State → Prop
  | action (id : String) {body : State.Body} (hp : body.Performs) {next : String}
      (hn : next ∈ ids) : Linked ids (State.make id body (.str next))
  | stop (id reason : String) : Linked ids (State.make id (.stop (.str reason)) .null)
  | choice (id : String) (exits : List (String × String)) {otherwise : String}
      (he : ∀ e ∈ exits, e.2 ∈ ids) (ho : otherwise ∈ ids) :
    Linked ids (State.make id (.choice (State.branchesOf exits) (.str otherwise)) .null)

/-- The exits of a choice are texts. -/
theorem exits_eq (follow : String) (arms : List Arm) : State.Branches.list (exits follow arms) =
    State.branchesOf (arms.map fun arm => (arm.condition, entry follow arm.nodes)) := by
  simp [exits, State.branchesOf]

/-- The ids in a branch are ids of the branches. -/
theorem idsAll_sub_armIds {arm : Arm} {arms : List Arm} (h : arm ∈ arms) :
    ∀ id ∈ idsAll arm.nodes, id ∈ armIds arms := by
  induction arms with
  | nil => cases h
  | cons a rest ih =>
    obtain ⟨condition, nodes⟩ := a
    intro id hid
    rw [armIds, List.mem_append]
    cases h with
    | head => exact Or.inl hid
    | tail _ h => exact Or.inr (ih h id hid)

/-- A block whose ids are among the given ones is entered at one of them. -/
theorem entry_mem_of_sub {ids : List String} {follow : String} {nodes : List Node}
    (hsub : ∀ id ∈ idsAll nodes, id ∈ ids) (hf : follow ∈ ids) : entry follow nodes ∈ ids := by
  rcases entry_mem follow nodes with h | h
  · rw [h]; exact hf
  · exact hsub _ h

mutual

/-- The states of a node lead to each other, or to the state that follows. -/
theorem linkOne_linked {ids : List String} {follow : String} (hf : follow ∈ ids) : (n : Node) →
    n.Performs → (∀ id ∈ n.ids, id ∈ ids) → ∀ s ∈ linkOne follow n, Linked ids s
  | .action id body, hp, _, s, hs => by
    rw [linkOne, List.mem_singleton] at hs
    rw [hs]; exact .action id hp hf
  | .stop id reason, _, _, s, hs => by
    rw [linkOne, List.mem_singleton] at hs
    rw [hs]; exact .stop id reason
  | .choice id arms otherwise, hp, hsub, s, hs => by
    have harms : ∀ x ∈ armIds arms, x ∈ ids := fun x hx => hsub x (by simp [Node.ids, hx])
    have hother : ∀ x ∈ idsAll otherwise, x ∈ ids := fun x hx => hsub x (by simp [Node.ids, hx])
    rw [linkOne, List.mem_cons, List.mem_append] at hs
    rcases hs with rfl | hs | hs
    · rw [exits_eq]
      refine .choice id _ (fun e he => ?_) (entry_mem_of_sub hother hf)
      obtain ⟨arm, harm, rfl⟩ := List.mem_map.mp he
      exact entry_mem_of_sub (fun x hx => harms x (idsAll_sub_armIds harm x hx)) hf
    · exact linkArms_linked hf arms hp.1 harms s hs
    · exact linkAll_linked hf otherwise hp.2 hother s hs

/-- The states of a block lead to each other, or to the state that follows. -/
theorem linkAll_linked {ids : List String} {follow : String} (hf : follow ∈ ids) :
    (nodes : List Node) → allPerform nodes → (∀ id ∈ idsAll nodes, id ∈ ids) →
    ∀ s ∈ linkAll follow nodes, Linked ids s
  | [], _, _, s, hs => by cases hs
  | n :: rest, hp, hsub, s, hs => by
    have hn : ∀ x ∈ n.ids, x ∈ ids := fun x hx => hsub x (by simp [idsAll, hx])
    have hrest : ∀ x ∈ idsAll rest, x ∈ ids := fun x hx => hsub x (by simp [idsAll, hx])
    rw [linkAll, List.mem_append] at hs
    rcases hs with hs | hs
    · -- The first node is followed by the rest of the block.
      exact linkOne_linked (entry_mem_of_sub hrest hf) n hp.1 hn s hs
    · exact linkAll_linked hf rest hp.2 hrest s hs

/-- The states of branches lead to each other, or to the state that follows. -/
theorem linkArms_linked {ids : List String} {follow : String} (hf : follow ∈ ids) :
    (arms : List Arm) → armsPerform arms → (∀ id ∈ armIds arms, id ∈ ids) →
    ∀ s ∈ linkArms follow arms, Linked ids s
  | [], _, _, s, hs => by cases hs
  | ⟨_, nodes⟩ :: rest, hp, hsub, s, hs => by
    rw [linkArms, List.mem_append] at hs
    rcases hs with hs | hs
    · exact linkAll_linked hf nodes hp.1 (fun x hx => hsub x (by simp [armIds, hx])) s hs
    · exact linkArms_linked hf rest hp.2 (fun x hx => hsub x (by simp [armIds, hx])) s hs

end

namespace Linked

/-- Linked states hold texts. -/
theorem textual {ids : List String} {s : State} (h : Linked ids s) : s.Textual := by
  cases h with
  | stop id reason => exact .stop id reason
  | choice id exits he ho => exact .choice id exits _
  | action id hp hn =>
    cases hp with
    | ask prompt assignee => exact .userTask id prompt assignee none _ (fun _ h => nomatch h)
    | perform action => exact .task id action _
    | send channel recipient message => exact .send id channel recipient message _

/-- A target that may be missing. -/
theorem eq_of_mem_ite {v t : Json} (h : t ∈ if v.isGiven then [v] else []) : t = v := by
  by_cases hg : v.isGiven = true
  · rw [if_pos hg] at h; exact List.mem_singleton.mp h
  · rw [if_neg hg] at h; cases h

/-- Linked states lead to the given ids. -/
theorem targets {ids : List String} {s : State} (h : Linked ids s) :
    ∀ t ∈ s.targets, ∃ id ∈ ids, t = .str id := by
  intro t ht
  cases h with
  | stop => cases ht
  | action id hp hn => cases hp <;> exact ⟨_, hn, eq_of_mem_ite ht⟩
  | choice id exits he ho =>
    rcases List.mem_append.mp ht with ht | ht
    · obtain ⟨b, hb, rfl⟩ := List.mem_map.mp ht
      obtain ⟨e, hmem, rfl⟩ := List.mem_map.mp hb
      exact ⟨e.2, he e hmem, rfl⟩
    · exact ⟨_, ho, eq_of_mem_ite ht⟩

/-- Linked states say where to go on, if no id is empty. -/
theorem leadsOn {ids : List String} (hne : ∀ id ∈ ids, id ≠ "") {s : State} (h : Linked ids s) :
    s.leadsOn = true := by
  have hgiven : ∀ id ∈ ids, (Json.str id).isGiven = true := by
    intro id hid
    simpa [Json.isGiven] using hne id hid
  cases h with
  | stop => rfl
  | action id hp hn => cases hp <;> exact hgiven _ hn
  | choice id exits he ho => exact hgiven _ ho

end Linked

end Swimlane.Story
