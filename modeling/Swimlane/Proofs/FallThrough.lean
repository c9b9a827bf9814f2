import Mathlib.Data.List.Forall2
import Swimlane.Proofs.Links

/-!
# Blocks that are fallen through

Whether what stands behind a statement can be met is told by the shape of the story alone: a stop
is never passed, and a conditional is passed if one of its blocks is.  The same is said of the
nodes of the story, with a mark on every id for whether its state can be met.

## Key results

- `nameAll_falls`: the nodes of a block are fallen through if its statements are
- `marksAll_ids`: there is one mark for each id, in order
- `nameAll_told`: the states of a block stand for its statements, in order, and their marks tell
  which statements are met
-/

namespace Swimlane.Story

/-! ## Statements -/

mutual

/-- Whether what stands behind a statement can be met. -/
def Statement.fallsThrough : Statement → Bool
  | .stop .. => false
  | .conditional _ _ none => true
  | .conditional _ branches (some body) => someBranchFalls branches || blockFalls body
  | _ => true

/-- Whether what stands behind a block can be met: all its statements are fallen through. -/
def blockFalls : List Statement → Bool
  | [] => true
  | s :: rest => s.fallsThrough && blockFalls rest

/-- Whether one of the branches is fallen through. -/
def someBranchFalls : List Branch → Bool
  | [] => false
  | ⟨_, body, _⟩ :: rest => blockFalls body || someBranchFalls rest

end

/-- A statement inside a story, with what stands before it: its earlier siblings, and those of
    every conditional that it is inside of. -/
structure Position where
  statement : Statement
  earlier : List Statement

/-- Whether a position can be met: all that stands before it is fallen through. -/
def Position.isMet (p : Position) : Bool := p.earlier.all (·.fallsThrough)

mutual

/-- The positions of a statement and of those inside of it, in the order of the text. -/
def Statement.positions (earlier : List Statement) : Statement → List Position
  | .conditional source branches none =>
    ⟨.conditional source branches none, earlier⟩ :: branchPositions earlier branches
  | .conditional source branches (some body) =>
    ⟨.conditional source branches (some body), earlier⟩ ::
      (branchPositions earlier branches ++ blockPositions earlier body)
  | s => [⟨s, earlier⟩]

/-- The positions in a block. -/
def blockPositions (earlier : List Statement) : List Statement → List Position
  | [] => []
  | s :: rest => s.positions earlier ++ blockPositions (earlier ++ [s]) rest

/-- The positions in the branches of a conditional. -/
def branchPositions (earlier : List Statement) : List Branch → List Position
  | [] => []
  | ⟨_, body, _⟩ :: rest => blockPositions earlier body ++ branchPositions earlier rest

end

/-- A state does what a statement says. -/
def Statement.Matches : Statement → State → Prop
  | .ask _ subject prompt, s => s.body = .userTask (.str prompt) (.str subject) none
  | .perform _ action, s => s.body = .task (.str action)
  | .send _ message recipient channel, s =>
    s.body = .send (.str channel) (.str recipient) (.str message)
  | .stop _ reason, s => s.body = .stop (.str reason)
  | .conditional _ branches _, s => ∃ exits otherwise, s.body = .choice (.list exits) otherwise ∧
    exits.map (·.condition) = branches.map (Json.str ·.condition)
  | .header .., _ => False
  | .foreign .., _ => False

/-! ## Nodes -/

mutual

/-- Whether what stands behind a node can be met. -/
def Node.fallsThrough : Node → Bool
  | .action .. => true
  | .stop .. => false
  | .choice _ arms otherwise => someArmFalls arms || nodesFall otherwise

/-- Whether what stands behind a block of nodes can be met. -/
def nodesFall : List Node → Bool
  | [] => true
  | n :: rest => n.fallsThrough && nodesFall rest

/-- Whether one of the branches is fallen through. -/
def someArmFalls : List Arm → Bool
  | [] => false
  | ⟨_, nodes⟩ :: rest => nodesFall nodes || someArmFalls rest

end

mutual

/-- The ids of a node, each with a mark for whether it is met if the node is. -/
def Node.marks (met : Bool) : Node → List (String × Bool)
  | .action id _ => [(id, met)]
  | .stop id _ => [(id, met)]
  | .choice id arms otherwise => (id, met) :: (armMarks met arms ++ marksAll met otherwise)

/-- The ids of a block with their marks. -/
def marksAll (met : Bool) : List Node → List (String × Bool)
  | [] => []
  | n :: rest => n.marks met ++ marksAll (met && n.fallsThrough) rest

/-- The ids in branches with their marks. -/
def armMarks (met : Bool) : List Arm → List (String × Bool)
  | [] => []
  | ⟨_, nodes⟩ :: rest => marksAll met nodes ++ armMarks met rest

end

mutual

/-- The marks of a node are on its ids. -/
theorem marks_ids : (n : Node) → ∀ met, (n.marks met).map (·.1) = n.ids
  | .action .., met => rfl
  | .stop .., met => rfl
  | .choice id arms otherwise, met => by
    simp only [Node.marks, Node.ids, List.map_cons, List.map_append, armMarks_ids arms,
      marksAll_ids otherwise]

/-- The marks of a block are on its ids. -/
theorem marksAll_ids : (nodes : List Node) → ∀ met, (marksAll met nodes).map (·.1) = idsAll nodes
  | [], met => rfl
  | n :: rest, met => by
    simp only [marksAll, idsAll, List.map_append, marks_ids n, marksAll_ids rest]

/-- The marks of branches are on their ids. -/
theorem armMarks_ids : (arms : List Arm) → ∀ met, (armMarks met arms).map (·.1) = armIds arms
  | [], met => rfl
  | ⟨_, nodes⟩ :: rest, met => by
    simp only [armMarks, armIds, List.map_append, marksAll_ids nodes, armMarks_ids rest]

end

/-- The id of a node is marked as the node is. -/
theorem mem_marks_id (n : Node) (met : Bool) : (n.id, met) ∈ n.marks met := by
  cases n <;> exact List.mem_cons_self

/-- The marks of a branch are marks of the branches. -/
theorem marksAll_sub_armMarks {arm : Arm} {arms : List Arm} (h : arm ∈ arms) (met : Bool) :
    ∀ m ∈ marksAll met arm.nodes, m ∈ armMarks met arms := by
  induction arms with
  | nil => cases h
  | cons a rest ih =>
    obtain ⟨condition, nodes⟩ := a
    intro m hm
    rw [armMarks, List.mem_append]
    cases h with
    | head => exact Or.inl hm
    | tail _ h => exact Or.inr (ih h m hm)

/-- One of the branches is fallen through if this one is. -/
theorem someArmFalls_of_mem {arm : Arm} {arms : List Arm} (h : arm ∈ arms)
    (hf : nodesFall arm.nodes = true) : someArmFalls arms = true := by
  induction arms with
  | nil => cases h
  | cons a rest ih =>
    obtain ⟨condition, nodes⟩ := a
    rw [someArmFalls, Bool.or_eq_true]
    cases h with
    | head => exact Or.inl hf
    | tail _ h => exact Or.inr (ih h)

/-! ## From statements to nodes -/

mutual

/-- The node of a statement is fallen through if the statement is. -/
theorem nameOne_falls : (s : Statement) → ∀ {used used' node},
    nameOne used s = .ok (node, used') → node.fallsThrough = s.fallsThrough
  | .ask .., used, used', node, h => by cases h; rfl
  | .perform .., used, used', node, h => by cases h; rfl
  | .send .., used, used', node, h => by cases h; rfl
  | .stop .., used, used', node, h => by cases h; rfl
  | .conditional _ branches none, used, used', node, h => by
    rw [nameOne] at h
    obtain ⟨⟨arms, used₁⟩, _, h⟩ := Except.bind_eq_ok.mp h
    cases h
    -- Without a last resort there is nothing to stop at.
    simp [Node.fallsThrough, Statement.fallsThrough, nodesFall]
  | .conditional _ branches (some body), used, used', node, h => by
    rw [nameOne] at h
    obtain ⟨⟨arms, used₁⟩, hb, h⟩ := Except.bind_eq_ok.mp h
    obtain ⟨⟨nodes, used₂⟩, ha, h⟩ := Except.bind_eq_ok.mp h
    cases h
    rw [Node.fallsThrough, Statement.fallsThrough, nameBranches_falls branches hb,
      nameAll_falls body ha]

/-- The nodes of a block are fallen through if its statements are. -/
theorem nameAll_falls : (body : List Statement) → ∀ {used used' nodes},
    nameAll used body = .ok (nodes, used') → nodesFall nodes = blockFalls body
  | [], used, used', nodes, h => by cases h; rfl
  | s :: rest, used, used', nodes, h => by
    rw [nameAll] at h
    obtain ⟨⟨node, used₁⟩, hs, h⟩ := Except.bind_eq_ok.mp h
    obtain ⟨⟨more, used₂⟩, hr, h⟩ := Except.bind_eq_ok.mp h
    cases h
    rw [nodesFall, blockFalls, nameOne_falls s hs, nameAll_falls rest hr]

/-- The nodes of one of the branches are fallen through if its statements are. -/
theorem nameBranches_falls : (branches : List Branch) → ∀ {used used' arms},
    nameBranches used branches = .ok (arms, used') → someArmFalls arms = someBranchFalls branches
  | [], used, used', arms, h => by cases h; rfl
  | ⟨condition, body, _⟩ :: rest, used, used', arms, h => by
    rw [nameBranches] at h
    obtain ⟨⟨nodes, used₁⟩, hs, h⟩ := Except.bind_eq_ok.mp h
    obtain ⟨⟨more, used₂⟩, hr, h⟩ := Except.bind_eq_ok.mp h
    cases h
    rw [someArmFalls, someBranchFalls, nameAll_falls body hs, nameBranches_falls rest hr]

end

/-- The exits of a choice have the conditions of its branches. -/
theorem nameBranches_conditions (follow : String) : (branches : List Branch) →
    ∀ {used used' arms}, nameBranches used branches = .ok (arms, used') →
    (exits follow arms).map (·.condition) = branches.map (Json.str ·.condition)
  | [], used, used', arms, h => by cases h; rfl
  | ⟨condition, body, _⟩ :: rest, used, used', arms, h => by
    rw [nameBranches] at h
    obtain ⟨⟨nodes, used₁⟩, _, h⟩ := Except.bind_eq_ok.mp h
    obtain ⟨⟨more, used₂⟩, hr, h⟩ := Except.bind_eq_ok.mp h
    cases h
    exact congrArg _ (nameBranches_conditions follow rest hr)

/-- The marks of ids tell which of them have a property. -/
def Agree (P : String → Prop) (marks : List (String × Bool)) : Prop :=
  ∀ m ∈ marks, P m.1 ↔ m.2 = true

/-- Marks that agree with a property agree with it in each part. -/
theorem agree_append {P : String → Prop} {marks marks' : List (String × Bool)} :
    Agree P (marks ++ marks') ↔ Agree P marks ∧ Agree P marks' :=
  List.forall_mem_append

/-- Marks that agree with a property, one after the other. -/
theorem agree_cons {P : String → Prop} {m : String × Bool} {marks : List (String × Bool)} :
    Agree P (m :: marks) ↔ (P m.1 ↔ m.2 = true) ∧ Agree P marks :=
  List.forall_mem_cons

/-- A state stands for a statement at a position, and has a property if the position is met. -/
def Tells (P : String → Prop) (p : Position) (s : State) : Prop :=
  p.statement.Matches s ∧ (P s.id.display ↔ p.isMet = true)

mutual

/-- The states of a node stand for its statement and for those inside. -/
theorem nameOne_told {P : String → Prop} : (s : Statement) → ∀ {used used' node follow earlier},
    nameOne used s = .ok (node, used') →
    Agree P (node.marks (earlier.all (·.fallsThrough))) →
    List.Forall₂ (Tells P) (s.positions earlier) (linkOne follow node)
  | .ask .., used, used', node, follow, earlier, h, hP => by
    cases h; exact .cons ⟨rfl, (agree_cons.mp hP).1⟩ .nil
  | .perform .., used, used', node, follow, earlier, h, hP => by
    cases h; exact .cons ⟨rfl, (agree_cons.mp hP).1⟩ .nil
  | .send .., used, used', node, follow, earlier, h, hP => by
    cases h; exact .cons ⟨rfl, (agree_cons.mp hP).1⟩ .nil
  | .stop .., used, used', node, follow, earlier, h, hP => by
    cases h; exact .cons ⟨rfl, (agree_cons.mp hP).1⟩ .nil
  | .conditional _ branches none, used, used', node, follow, earlier, h, hP => by
    rw [nameOne] at h
    obtain ⟨⟨arms, used₁⟩, hb, h⟩ := Except.bind_eq_ok.mp h
    cases h
    -- The branches are met as the conditional itself is: the same stands before them.
    obtain ⟨hid, hrest⟩ := agree_cons.mp hP
    have harms : List.Forall₂ (Tells P) (branchPositions earlier branches) (linkArms follow arms) :=
      nameBranches_told branches hb (agree_append.mp hrest).1
    rw [Statement.positions, linkOne, linkAll, List.append_nil]
    exact .cons ⟨⟨_, _, rfl, nameBranches_conditions follow branches hb⟩, hid⟩ harms
  | .conditional _ branches (some body), used, used', node, follow, earlier, h, hP => by
    rw [nameOne] at h
    obtain ⟨⟨arms, used₁⟩, hb, h⟩ := Except.bind_eq_ok.mp h
    obtain ⟨⟨nodes, used₂⟩, ha, h⟩ := Except.bind_eq_ok.mp h
    cases h
    obtain ⟨hid, hrest⟩ := agree_cons.mp hP
    have harms : List.Forall₂ (Tells P) (branchPositions earlier branches) (linkArms follow arms) :=
      nameBranches_told branches hb (agree_append.mp hrest).1
    have hnodes : List.Forall₂ (Tells P) (blockPositions earlier body) (linkAll follow nodes) :=
      nameAll_told body ha (agree_append.mp hrest).2
    rw [Statement.positions, linkOne]
    exact .cons ⟨⟨_, _, rfl, nameBranches_conditions follow branches hb⟩, hid⟩
      (List.rel_append harms hnodes)

/-- The states of a block stand for its statements and for those inside. -/
theorem nameAll_told {P : String → Prop} : (body : List Statement) →
    ∀ {used used' nodes follow earlier}, nameAll used body = .ok (nodes, used') →
    Agree P (marksAll (earlier.all (·.fallsThrough)) nodes) →
    List.Forall₂ (Tells P) (blockPositions earlier body) (linkAll follow nodes)
  | [], used, used', nodes, follow, earlier, h, hP => by cases h; exact .nil
  | s :: rest, used, used', nodes, follow, earlier, h, hP => by
    rw [nameAll] at h
    obtain ⟨⟨node, used₁⟩, hs, h⟩ := Except.bind_eq_ok.mp h
    obtain ⟨⟨more, used₂⟩, hr, h⟩ := Except.bind_eq_ok.mp h
    cases h
    obtain ⟨hnode, hmore⟩ := agree_append.mp hP
    -- The rest of the block has one more statement before it.
    have hearlier : (earlier.all (·.fallsThrough) && node.fallsThrough) =
        (earlier ++ [s]).all (·.fallsThrough) := by
      simp [nameOne_falls s hs]
    rw [hearlier] at hmore
    rw [blockPositions, linkAll]
    exact List.rel_append (nameOne_told s hs hnode) (nameAll_told rest hr hmore)

/-- The states of branches stand for the statements in them. -/
theorem nameBranches_told {P : String → Prop} : (branches : List Branch) →
    ∀ {used used' arms follow earlier}, nameBranches used branches = .ok (arms, used') →
    Agree P (armMarks (earlier.all (·.fallsThrough)) arms) →
    List.Forall₂ (Tells P) (branchPositions earlier branches) (linkArms follow arms)
  | [], used, used', arms, follow, earlier, h, hP => by cases h; exact .nil
  | ⟨condition, body, _⟩ :: rest, used, used', arms, follow, earlier, h, hP => by
    rw [nameBranches] at h
    obtain ⟨⟨nodes, used₁⟩, hs, h⟩ := Except.bind_eq_ok.mp h
    obtain ⟨⟨more, used₂⟩, hr, h⟩ := Except.bind_eq_ok.mp h
    cases h
    obtain ⟨hnodes, hmore⟩ := agree_append.mp hP
    rw [branchPositions, linkArms]
    exact List.rel_append (nameAll_told body hs hnodes) (nameBranches_told rest hr hmore)

end

end Swimlane.Story
