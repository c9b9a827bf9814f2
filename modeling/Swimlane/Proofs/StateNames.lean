import Swimlane.Graph.OfStory
import Swimlane.Proofs.Except
import Swimlane.Proofs.FreshNames

/-!
# The names of states

Naming goes through the statements of a story in the order of the text and gives every state an
id of its own.  The ids in use grow at their end only, so they are the ids of the nodes in order.

## Key results

- `nameAll_ids`: the ids in use are the earlier ones and those of the nodes, in order
- `nameAll_preserves`: what giving one more id preserves, naming preserves
- `nameAll_nodup`: no id is given twice
- `nameAll_performs`: a node that is neither a stop nor a choice performs one action
- `nameAll_plain`: statements without headers and foreign statements inside can be named
-/

namespace Swimlane

/-- A body that performs one action, with the texts of the action. -/
inductive State.Body.Performs : State.Body → Prop
  | ask (prompt assignee : String) : Performs (.userTask (.str prompt) (.str assignee) none)
  | perform (action : String) : Performs (.task (.str action))
  | send (channel recipient message : String) :
    Performs (.send (.str channel) (.str recipient) (.str message))

namespace Story

/-! ## The ids of nodes -/

mutual

/-- The ids of a node and of the nodes inside of it, in order. -/
def Node.ids : Node → List String
  | .action id _ => [id]
  | .stop id _ => [id]
  | .choice id arms otherwise => id :: (armIds arms ++ idsAll otherwise)

/-- The ids of nodes and of the nodes inside of them, in order. -/
def idsAll : List Node → List String
  | [] => []
  | n :: rest => n.ids ++ idsAll rest

/-- The ids of the nodes in the branches of a conditional, in order. -/
def armIds : List Arm → List String
  | [] => []
  | ⟨_, nodes⟩ :: rest => idsAll nodes ++ armIds rest

end

mutual

/-- Naming a statement puts the ids of its node behind the ids in use. -/
theorem nameOne_ids : (s : Statement) → ∀ {used used' node},
    nameOne used s = .ok (node, used') → used' = used ++ node.ids
  | .ask .., used, used', node, h => by cases h; rfl
  | .perform .., used, used', node, h => by cases h; rfl
  | .send .., used, used', node, h => by cases h; rfl
  | .stop .., used, used', node, h => by cases h; rfl
  | .conditional _ branches none, used, used', node, h => by
    rw [nameOne] at h
    obtain ⟨⟨arms, used₁⟩, hb, h⟩ := Except.bind_eq_ok.mp h
    cases h
    rw [nameBranches_ids branches hb]
    simp [Node.ids, idsAll]
  | .conditional _ branches (some body), used, used', node, h => by
    rw [nameOne] at h
    obtain ⟨⟨arms, used₁⟩, hb, h⟩ := Except.bind_eq_ok.mp h
    obtain ⟨⟨nodes, used₂⟩, ha, h⟩ := Except.bind_eq_ok.mp h
    cases h
    rw [nameAll_ids body ha, nameBranches_ids branches hb]
    simp [Node.ids]

/-- Naming a block puts the ids of its nodes behind the ids in use. -/
theorem nameAll_ids : (body : List Statement) → ∀ {used used' nodes},
    nameAll used body = .ok (nodes, used') → used' = used ++ idsAll nodes
  | [], used, used', nodes, h => by cases h; simp [idsAll]
  | s :: rest, used, used', nodes, h => by
    rw [nameAll] at h
    obtain ⟨⟨node, used₁⟩, hs, h⟩ := Except.bind_eq_ok.mp h
    obtain ⟨⟨more, used₂⟩, hr, h⟩ := Except.bind_eq_ok.mp h
    cases h
    rw [nameAll_ids rest hr, nameOne_ids s hs]
    simp [idsAll]

/-- Naming branches puts the ids of their nodes behind the ids in use. -/
theorem nameBranches_ids : (branches : List Branch) → ∀ {used used' arms},
    nameBranches used branches = .ok (arms, used') → used' = used ++ armIds arms
  | [], used, used', arms, h => by cases h; simp [armIds]
  | ⟨condition, body, _⟩ :: rest, used, used', arms, h => by
    rw [nameBranches] at h
    obtain ⟨⟨nodes, used₁⟩, hs, h⟩ := Except.bind_eq_ok.mp h
    obtain ⟨⟨more, used₂⟩, hr, h⟩ := Except.bind_eq_ok.mp h
    cases h
    rw [nameBranches_ids rest hr, nameAll_ids body hs]
    simp [armIds]

end

/-! ## What naming preserves -/

/-- A label that ids are made of: it starts with a small ASCII letter. -/
def IsLabel (label : String) : Prop := ∃ c rest, label.toList = c :: rest ∧ c.isLower = true

/-- A text behind a word is a label if the word starts with a small letter. -/
theorem isLabel_append (word text : String) (h : IsLabel word) : IsLabel (word ++ text) := by
  obtain ⟨c, rest, hw, hc⟩ := h
  exact ⟨c, rest ++ text.toList, by rw [String.toList_append, hw, List.cons_append], hc⟩

/-- The label of a conditional is a label. -/
theorem isLabel_conditional (branches : List Branch) : IsLabel (conditionalLabel branches) := by
  cases branches with
  | nil => exact ⟨'i', ['f'], rfl, rfl⟩
  | cons b rest => exact isLabel_append "if " _ ⟨'i', ['f', ' '], rfl, rfl⟩

/-- A property of the ids in use that survives when a label gets its id. -/
def NamingInvariant (P : List String → Prop) : Prop :=
  ∀ used label, IsLabel label → P used → P (used ++ [idFor used label])

mutual

/-- Naming a statement keeps every naming invariant. -/
theorem nameOne_preserves {P : List String → Prop} (hP : NamingInvariant P) :
    (s : Statement) → ∀ {used used' node}, nameOne used s = .ok (node, used') → P used → P used'
  | .ask _ _ prompt, used, used', node, h, hu => by
    cases h; exact hP used _ (isLabel_append "ask " prompt ⟨'a', ['s', 'k', ' '], rfl, rfl⟩) hu
  | .perform _ action, used, used', node, h, hu => by
    cases h; exact hP used _ (isLabel_append "do " action ⟨'d', ['o', ' '], rfl, rfl⟩) hu
  | .send _ message recipient _, used, used', node, h, hu => by
    cases h
    refine hP used _ ?_ hu
    exact isLabel_append _ recipient (isLabel_append _ " to " (isLabel_append "send " message
      ⟨'s', ['e', 'n', 'd', ' '], rfl, rfl⟩))
  | .stop _ reason, used, used', node, h, hu => by
    cases h; exact hP used _ (isLabel_append "stop " reason ⟨'s', ['t', 'o', 'p', ' '], rfl, rfl⟩) hu
  | .conditional _ branches none, used, used', node, h, hu => by
    rw [nameOne] at h
    obtain ⟨⟨arms, used₁⟩, hb, h⟩ := Except.bind_eq_ok.mp h
    cases h
    exact nameBranches_preserves hP branches hb (hP used _ (isLabel_conditional branches) hu)
  | .conditional _ branches (some body), used, used', node, h, hu => by
    rw [nameOne] at h
    obtain ⟨⟨arms, used₁⟩, hb, h⟩ := Except.bind_eq_ok.mp h
    obtain ⟨⟨nodes, used₂⟩, ha, h⟩ := Except.bind_eq_ok.mp h
    cases h
    have hu₁ := nameBranches_preserves hP branches hb (hP used _ (isLabel_conditional branches) hu)
    exact nameAll_preserves hP body ha hu₁

/-- Naming a block keeps every naming invariant. -/
theorem nameAll_preserves {P : List String → Prop} (hP : NamingInvariant P) :
    (body : List Statement) → ∀ {used used' nodes},
    nameAll used body = .ok (nodes, used') → P used → P used'
  | [], used, used', nodes, h, hu => by cases h; exact hu
  | s :: rest, used, used', nodes, h, hu => by
    rw [nameAll] at h
    obtain ⟨⟨node, used₁⟩, hs, h⟩ := Except.bind_eq_ok.mp h
    obtain ⟨⟨more, used₂⟩, hr, h⟩ := Except.bind_eq_ok.mp h
    cases h
    exact nameAll_preserves hP rest hr (nameOne_preserves hP s hs hu)

/-- Naming branches keeps every naming invariant. -/
theorem nameBranches_preserves {P : List String → Prop} (hP : NamingInvariant P) :
    (branches : List Branch) → ∀ {used used' arms},
    nameBranches used branches = .ok (arms, used') → P used → P used'
  | [], used, used', arms, h, hu => by cases h; exact hu
  | ⟨condition, body, _⟩ :: rest, used, used', arms, h, hu => by
    rw [nameBranches] at h
    obtain ⟨⟨nodes, used₁⟩, hs, h⟩ := Except.bind_eq_ok.mp h
    obtain ⟨⟨more, used₂⟩, hr, h⟩ := Except.bind_eq_ok.mp h
    cases h
    exact nameBranches_preserves hP rest hr (nameAll_preserves hP body hs hu)

end

/-- An id in use is not given again. -/
theorem namingInvariant_nodup : NamingInvariant List.Nodup := by
  intro used label _ hu
  rw [List.nodup_append]
  refine ⟨hu, by simp, fun a ha b hb heq => ?_⟩
  rw [List.mem_singleton] at hb
  exact Text.fresh_not_mem _ used (hb ▸ heq ▸ ha)

/-- The ids of the nodes of a story are different from each other. -/
theorem nameAll_nodup {body : List Statement} {used : List String} {nodes : List Node}
    (h : nameAll [] body = .ok (nodes, used)) : used.Nodup :=
  nameAll_preserves namingInvariant_nodup body h List.nodup_nil

/-! ## What the nodes do -/

mutual

/-- Every part of a node that is neither a stop nor a choice performs one action. -/
def Node.Performs : Node → Prop
  | .action _ body => body.Performs
  | .stop .. => True
  | .choice _ arms otherwise => armsPerform arms ∧ allPerform otherwise

/-- `Node.Performs` for all nodes of a block. -/
def allPerform : List Node → Prop
  | [] => True
  | n :: rest => n.Performs ∧ allPerform rest

/-- `Node.Performs` for all nodes in branches. -/
def armsPerform : List Arm → Prop
  | [] => True
  | ⟨_, nodes⟩ :: rest => allPerform nodes ∧ armsPerform rest

end

mutual

/-- The node of a statement performs what it says. -/
theorem nameOne_performs : (s : Statement) → ∀ {used used' node},
    nameOne used s = .ok (node, used') → node.Performs
  | .ask _ subject prompt, used, used', node, h => by cases h; exact .ask prompt subject
  | .perform _ action, used, used', node, h => by cases h; exact .perform action
  | .send _ message recipient channel, used, used', node, h => by
    cases h; exact .send channel recipient message
  | .stop .., used, used', node, h => by cases h; exact trivial
  | .conditional _ branches none, used, used', node, h => by
    rw [nameOne] at h
    obtain ⟨⟨arms, used₁⟩, hb, h⟩ := Except.bind_eq_ok.mp h
    cases h
    exact ⟨nameBranches_performs branches hb, trivial⟩
  | .conditional _ branches (some body), used, used', node, h => by
    rw [nameOne] at h
    obtain ⟨⟨arms, used₁⟩, hb, h⟩ := Except.bind_eq_ok.mp h
    obtain ⟨⟨nodes, used₂⟩, ha, h⟩ := Except.bind_eq_ok.mp h
    cases h
    exact ⟨nameBranches_performs branches hb, nameAll_performs body ha⟩

/-- The nodes of a block perform what its statements say. -/
theorem nameAll_performs : (body : List Statement) → ∀ {used used' nodes},
    nameAll used body = .ok (nodes, used') → allPerform nodes
  | [], used, used', nodes, h => by cases h; exact trivial
  | s :: rest, used, used', nodes, h => by
    rw [nameAll] at h
    obtain ⟨⟨node, used₁⟩, hs, h⟩ := Except.bind_eq_ok.mp h
    obtain ⟨⟨more, used₂⟩, hr, h⟩ := Except.bind_eq_ok.mp h
    cases h
    exact ⟨nameOne_performs s hs, nameAll_performs rest hr⟩

/-- The nodes in branches perform what their statements say. -/
theorem nameBranches_performs : (branches : List Branch) → ∀ {used used' arms},
    nameBranches used branches = .ok (arms, used') → armsPerform arms
  | [], used, used', arms, h => by cases h; exact trivial
  | ⟨condition, body, _⟩ :: rest, used, used', arms, h => by
    rw [nameBranches] at h
    obtain ⟨⟨nodes, used₁⟩, hs, h⟩ := Except.bind_eq_ok.mp h
    obtain ⟨⟨more, used₂⟩, hr, h⟩ := Except.bind_eq_ok.mp h
    cases h
    exact ⟨nameAll_performs body hs, nameBranches_performs rest hr⟩

end

/-! ## Which statements can be named -/

mutual

/-- A statement that can stand in a block: no part of it is a header or of a foreign kind. -/
def Statement.Plain : Statement → Prop
  | .header .. => False
  | .foreign .. => False
  | .conditional _ branches none => branchesPlain branches
  | .conditional _ branches (some body) => branchesPlain branches ∧ allPlain body
  | _ => True

/-- `Statement.Plain` for all statements of a block. -/
def allPlain : List Statement → Prop
  | [] => True
  | s :: rest => s.Plain ∧ allPlain rest

/-- `Statement.Plain` for all statements in branches. -/
def branchesPlain : List Branch → Prop
  | [] => True
  | ⟨_, body, _⟩ :: rest => allPlain body ∧ branchesPlain rest

end

mutual

/-- A plain statement can be named. -/
theorem nameOne_plain : (s : Statement) → ∀ {used}, s.Plain →
    ∃ node used', nameOne used s = .ok (node, used')
  | .ask .., used, _ => ⟨_, _, rfl⟩
  | .perform .., used, _ => ⟨_, _, rfl⟩
  | .send .., used, _ => ⟨_, _, rfl⟩
  | .stop .., used, _ => ⟨_, _, rfl⟩
  | .conditional _ branches none, used, hp => by
    obtain ⟨arms, used₁, hb⟩ := nameBranches_plain branches hp
    exact ⟨_, _, Except.bind_eq_ok.mpr ⟨_, hb, rfl⟩⟩
  | .conditional _ branches (some body), used, hp => by
    obtain ⟨arms, used₁, hb⟩ := nameBranches_plain branches hp.1
    obtain ⟨nodes, used₂, ha⟩ := nameAll_plain body hp.2
    exact ⟨_, _, Except.bind_eq_ok.mpr ⟨_, hb, Except.bind_eq_ok.mpr ⟨_, ha, rfl⟩⟩⟩
  | .header .., used, hp => hp.elim
  | .foreign .., used, hp => hp.elim

/-- A block of plain statements can be named. -/
theorem nameAll_plain : (body : List Statement) → ∀ {used}, allPlain body →
    ∃ nodes used', nameAll used body = .ok (nodes, used')
  | [], used, _ => ⟨_, _, rfl⟩
  | s :: rest, used, hp => by
    obtain ⟨node, used₁, hs⟩ := nameOne_plain s hp.1
    obtain ⟨more, used₂, hr⟩ := nameAll_plain rest hp.2
    exact ⟨_, _, Except.bind_eq_ok.mpr ⟨_, hs, Except.bind_eq_ok.mpr ⟨_, hr, rfl⟩⟩⟩

/-- Branches of plain statements can be named. -/
theorem nameBranches_plain : (branches : List Branch) → ∀ {used}, branchesPlain branches →
    ∃ arms used', nameBranches used branches = .ok (arms, used')
  | [], used, _ => ⟨_, _, rfl⟩
  | ⟨condition, body, _⟩ :: rest, used, hp => by
    obtain ⟨nodes, used₁, hs⟩ := nameAll_plain body hp.1
    obtain ⟨more, used₂, hr⟩ := nameBranches_plain rest hp.2
    exact ⟨_, _, Except.bind_eq_ok.mpr ⟨_, hs, Except.bind_eq_ok.mpr ⟨_, hr, rfl⟩⟩⟩

end

end Story

end Swimlane
