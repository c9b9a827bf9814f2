import Swimlane.Proofs.DeadCode

/-!
# One state for each statement

The states of a story are its statements in the order of the text, one for each, and perhaps an end
state.  Whether there is one is told by the statements that come last: those of the story, and of
the blocks inside of these.  The id of a state is made of the label of its statement, and avoids the
ids of the states before it, so that later statements do not matter for it.

## Key results

- `nameAll_labels`: the ids of a block are those for its labels, one after the other
- `leadsTo_linkAll`: what follows a block is led to just if the block is open
- `Named.needsEnd_eq`: an end state is needed just if the story is open
- `nameAll_eq_ok_iff`: which statements can be named
- `states_of_ofStatements`: which states the graph of a story has, and which statements have a graph
-/

namespace Swimlane.Story

/-! ## Statements in order -/

mutual

/-- A statement and those inside of it, in the order of the text. -/
def Statement.preorder : Statement → List Statement
  | .conditional source branches none =>
    .conditional source branches none :: preorderBranches branches
  | .conditional source branches (some body) =>
    .conditional source branches (some body) :: (preorderBranches branches ++ preorderAll body)
  | s => [s]

/-- The statements of a block and those inside of them. -/
def preorderAll : List Statement → List Statement
  | [] => []
  | s :: rest => s.preorder ++ preorderAll rest

/-- The statements in the branches of a conditional. -/
def preorderBranches : List Branch → List Statement
  | [] => []
  | ⟨_, body, _⟩ :: rest => preorderAll body ++ preorderBranches rest

end

mutual

/-- The positions inside a statement are those of its statements in order. -/
theorem map_positions : (s : Statement) → ∀ earlier,
    (s.positions earlier).map (·.statement) = s.preorder
  | .header .., _ => rfl
  | .ask .., _ => rfl
  | .perform .., _ => rfl
  | .send .., _ => rfl
  | .stop .., _ => rfl
  | .foreign .., _ => rfl
  | .conditional _ branches none, earlier => by
    rw [Statement.positions, Statement.preorder, List.map_cons, map_branchPositions branches]
  | .conditional _ branches (some body), earlier => by
    rw [Statement.positions, Statement.preorder, List.map_cons, List.map_append,
      map_branchPositions branches, map_blockPositions body]

/-- The positions in a block are those of its statements in order. -/
theorem map_blockPositions : (body : List Statement) → ∀ earlier,
    (blockPositions earlier body).map (·.statement) = preorderAll body
  | [], _ => rfl
  | s :: rest, earlier => by
    rw [blockPositions, preorderAll, List.map_append, map_positions s, map_blockPositions rest]

/-- The positions in branches are those of their statements in order. -/
theorem map_branchPositions : (branches : List Branch) → ∀ earlier,
    (branchPositions earlier branches).map (·.statement) = preorderBranches branches
  | [], _ => rfl
  | ⟨_, body, _⟩ :: rest, earlier => by
    rw [branchPositions, preorderBranches, List.map_append, map_blockPositions body,
      map_branchPositions rest]

end

/-- A statement that a state can stand for. -/
def Statement.isKnown : Statement → Bool
  | .header .. => false
  | .foreign .. => false
  | _ => true

mutual

/-- A statement can be named if it and all inside of it are known. -/
theorem plain_iff : (s : Statement) → (s.Plain ↔ ∀ t ∈ s.preorder, t.isKnown = true)
  | .header .. => by simp [Statement.Plain, Statement.preorder, Statement.isKnown]
  | .ask .. => by simp [Statement.Plain, Statement.preorder, Statement.isKnown]
  | .perform .. => by simp [Statement.Plain, Statement.preorder, Statement.isKnown]
  | .send .. => by simp [Statement.Plain, Statement.preorder, Statement.isKnown]
  | .stop .. => by simp [Statement.Plain, Statement.preorder, Statement.isKnown]
  | .foreign .. => by simp [Statement.Plain, Statement.preorder, Statement.isKnown]
  | .conditional _ branches none => by
    rw [Statement.Plain, Statement.preorder, List.forall_mem_cons, branchesPlain_iff branches]
    exact ⟨fun h => ⟨rfl, h⟩, fun h => h.2⟩
  | .conditional _ branches (some body) => by
    rw [Statement.Plain, Statement.preorder, List.forall_mem_cons, List.forall_mem_append,
      branchesPlain_iff branches, allPlain_iff body]
    exact ⟨fun h => ⟨rfl, h⟩, fun h => h.2⟩

/-- A block can be named if all statements inside of it are known. -/
theorem allPlain_iff : (body : List Statement) →
    (allPlain body ↔ ∀ t ∈ preorderAll body, t.isKnown = true)
  | [] => by simp [allPlain, preorderAll]
  | s :: rest => by
    rw [allPlain, preorderAll, List.forall_mem_append, plain_iff s, allPlain_iff rest]

/-- Branches can be named if all statements inside of them are known. -/
theorem branchesPlain_iff : (branches : List Branch) →
    (branchesPlain branches ↔ ∀ t ∈ preorderBranches branches, t.isKnown = true)
  | [] => by simp [branchesPlain, preorderBranches]
  | ⟨_, body, _⟩ :: rest => by
    rw [branchesPlain, preorderBranches, List.forall_mem_append, allPlain_iff body,
      branchesPlain_iff rest]

end

mutual

/-- Only plain statements can be named. -/
theorem plain_of_nameOne : (s : Statement) → ∀ {used r}, nameOne used s = .ok r → s.Plain
  | .header .., used, r, h => by cases h
  | .ask .., used, r, h => trivial
  | .perform .., used, r, h => trivial
  | .send .., used, r, h => trivial
  | .stop .., used, r, h => trivial
  | .foreign .., used, r, h => by cases h
  | .conditional _ branches none, used, r, h => by
    rw [nameOne] at h
    obtain ⟨⟨arms, used₁⟩, hb, h⟩ := Except.bind_eq_ok.mp h
    exact branchesPlain_of_nameBranches branches hb
  | .conditional _ branches (some body), used, r, h => by
    rw [nameOne] at h
    obtain ⟨⟨arms, used₁⟩, hb, h⟩ := Except.bind_eq_ok.mp h
    obtain ⟨⟨nodes, used₂⟩, ha, h⟩ := Except.bind_eq_ok.mp h
    exact ⟨branchesPlain_of_nameBranches branches hb, allPlain_of_nameAll body ha⟩

/-- Only blocks of plain statements can be named. -/
theorem allPlain_of_nameAll : (body : List Statement) → ∀ {used r},
    nameAll used body = .ok r → allPlain body
  | [], used, r, h => trivial
  | s :: rest, used, r, h => by
    rw [nameAll] at h
    obtain ⟨⟨node, used₁⟩, hs, h⟩ := Except.bind_eq_ok.mp h
    obtain ⟨⟨more, used₂⟩, hr, h⟩ := Except.bind_eq_ok.mp h
    exact ⟨plain_of_nameOne s hs, allPlain_of_nameAll rest hr⟩

/-- Only branches of plain statements can be named. -/
theorem branchesPlain_of_nameBranches : (branches : List Branch) → ∀ {used r},
    nameBranches used branches = .ok r → branchesPlain branches
  | [], used, r, h => trivial
  | ⟨_, body, _⟩ :: rest, used, r, h => by
    rw [nameBranches] at h
    obtain ⟨⟨nodes, used₁⟩, hs, h⟩ := Except.bind_eq_ok.mp h
    obtain ⟨⟨more, used₂⟩, hr, h⟩ := Except.bind_eq_ok.mp h
    exact ⟨allPlain_of_nameAll body hs, branchesPlain_of_nameBranches rest hr⟩

end

/-- A block can be named just if all statements inside of it are known. -/
theorem nameAll_eq_ok_iff {used : List String} {body : List Statement} :
    (∃ r, nameAll used body = .ok r) ↔ ∀ t ∈ preorderAll body, t.isKnown = true := by
  rw [← allPlain_iff]
  constructor
  · rintro ⟨r, hr⟩
    exact allPlain_of_nameAll body hr
  · intro hplain
    obtain ⟨nodes, used', hname⟩ := nameAll_plain body hplain
    exact ⟨_, hname⟩

/-! ## Labels -/

/-- The label that the id of a statement is made of. -/
def Statement.label : Statement → String
  | .ask _ _ prompt => "ask " ++ prompt
  | .perform _ action => "do " ++ action
  | .send _ message recipient _ => "send " ++ message ++ " to " ++ recipient
  | .stop _ reason => "stop " ++ reason
  | .conditional _ branches _ => conditionalLabel branches
  | .header .. => ""
  | .foreign .. => ""

/-- The labels of a block, in order. -/
def labels (body : List Statement) : List String := (preorderAll body).map (·.label)

/-- The ids for labels, one after the other. -/
def idsFor (used : List String) : List String → List String
  | [] => []
  | label :: rest => idFor used label :: idsFor (used ++ [idFor used label]) rest

theorem idsFor_append (used ls ls' : List String) :
    idsFor used (ls ++ ls') = idsFor used ls ++ idsFor (used ++ idsFor used ls) ls' := by
  induction ls generalizing used with
  | nil => rw [idsFor, List.nil_append, List.nil_append, List.append_nil]
  | cons l ls ih => simp [idsFor, ih]

@[simp] theorem length_idsFor (used ls : List String) : (idsFor used ls).length = ls.length := by
  induction ls generalizing used with
  | nil => rfl
  | cons l ls ih => rw [idsFor, List.length_cons, List.length_cons, ih]

/-- The first ids are those for the first labels. -/
theorem take_idsFor (used ls : List String) (k : Nat) :
    (idsFor used ls).take k = idsFor used (ls.take k) := by
  induction ls generalizing used k with
  | nil => simp [idsFor]
  | cons l ls ih =>
    cases k with
    | zero => rfl
    | succ k => rw [idsFor, List.take_succ_cons, List.take_succ_cons, idsFor, ih]

/-- An id avoids the ids before it. -/
theorem getElem?_idsFor {used ls : List String} {k : Nat} {label : String}
    (h : ls[k]? = some label) :
    (idsFor used ls)[k]? = some (idFor (used ++ (idsFor used ls).take k) label) := by
  induction ls generalizing used k with
  | nil => cases h
  | cons l ls ih =>
    cases k with
    | zero =>
      cases h
      rw [idsFor, List.take_zero, List.append_nil]
      rfl
    | succ k =>
      rw [idsFor, List.getElem?_cons_succ, List.take_succ_cons, ih h, List.append_assoc]
      rfl

mutual

/-- Naming a statement gives it, and those inside of it, the ids for their labels. -/
theorem nameOne_labels : (s : Statement) → ∀ {used used' node},
    nameOne used s = .ok (node, used') → used' = used ++ idsFor used (s.preorder.map (·.label))
  | .ask .., used, used', node, h => by cases h; rfl
  | .perform .., used, used', node, h => by cases h; rfl
  | .send .., used, used', node, h => by cases h; rfl
  | .stop .., used, used', node, h => by cases h; rfl
  | .header .., used, used', node, h => by cases h
  | .foreign .., used, used', node, h => by cases h
  | .conditional _ branches none, used, used', node, h => by
    rw [nameOne] at h
    obtain ⟨⟨arms, used₁⟩, hb, h⟩ := Except.bind_eq_ok.mp h
    cases h
    rw [nameBranches_labels branches hb, Statement.preorder, List.map_cons, idsFor,
      List.append_assoc]
    rfl
  | .conditional _ branches (some body), used, used', node, h => by
    rw [nameOne] at h
    obtain ⟨⟨arms, used₁⟩, hb, h⟩ := Except.bind_eq_ok.mp h
    obtain ⟨⟨nodes, used₂⟩, ha, h⟩ := Except.bind_eq_ok.mp h
    cases h
    rw [nameAll_labels body ha, nameBranches_labels branches hb, Statement.preorder, List.map_cons,
      List.map_append, idsFor, idsFor_append]
    simp [Statement.label, labels]

/-- Naming a block gives the ids for its labels. -/
theorem nameAll_labels : (body : List Statement) → ∀ {used used' nodes},
    nameAll used body = .ok (nodes, used') → used' = used ++ idsFor used (labels body)
  | [], used, used', nodes, h => by cases h; simp [labels, preorderAll, idsFor]
  | s :: rest, used, used', nodes, h => by
    rw [nameAll] at h
    obtain ⟨⟨node, used₁⟩, hs, h⟩ := Except.bind_eq_ok.mp h
    obtain ⟨⟨more, used₂⟩, hr, h⟩ := Except.bind_eq_ok.mp h
    cases h
    rw [nameAll_labels rest hr, nameOne_labels s hs, labels, labels, preorderAll, List.map_append,
      idsFor_append, List.append_assoc]

/-- Naming branches gives the ids for their labels. -/
theorem nameBranches_labels : (branches : List Branch) → ∀ {used used' arms},
    nameBranches used branches = .ok (arms, used') →
    used' = used ++ idsFor used ((preorderBranches branches).map (·.label))
  | [], used, used', arms, h => by cases h; simp [preorderBranches, idsFor]
  | ⟨_, body, _⟩ :: rest, used, used', arms, h => by
    rw [nameBranches] at h
    obtain ⟨⟨nodes, used₁⟩, hs, h⟩ := Except.bind_eq_ok.mp h
    obtain ⟨⟨more, used₂⟩, hr, h⟩ := Except.bind_eq_ok.mp h
    cases h
    rw [nameBranches_labels rest hr, nameAll_labels body hs, preorderBranches, List.map_append,
      idsFor_append, List.append_assoc]
    rfl

end

/-! ## Open blocks -/

mutual

/-- Whether a statement goes on to what follows it: a stop does not, and a conditional does if one
    of its blocks is open. -/
def Statement.isOpen : Statement → Bool
  | .stop .. => false
  | .conditional _ _ none => true
  | .conditional _ branches (some body) => someBranchOpen branches || blockOpen body
  | _ => true

/-- Whether a block is open: it is empty, or its last statement is open. -/
def blockOpen : List Statement → Bool
  | [] => true
  | [s] => s.isOpen
  | _ :: s :: rest => blockOpen (s :: rest)

/-- Whether one of the branches is open. -/
def someBranchOpen : List Branch → Bool
  | [] => false
  | ⟨_, body, _⟩ :: rest => blockOpen body || someBranchOpen rest

end

mutual

/-- Whether a node goes on to what follows it. -/
def Node.isOpen : Node → Bool
  | .action .. => true
  | .stop .. => false
  | .choice _ arms otherwise => someArmOpen arms || nodesOpen otherwise

/-- Whether a block of nodes is open. -/
def nodesOpen : List Node → Bool
  | [] => true
  | [n] => n.isOpen
  | _ :: n :: rest => nodesOpen (n :: rest)

/-- Whether one of the branches is open. -/
def someArmOpen : List Arm → Bool
  | [] => false
  | ⟨_, nodes⟩ :: rest => nodesOpen nodes || someArmOpen rest

end

mutual

/-- The node of a statement is open if the statement is. -/
theorem nameOne_open : (s : Statement) → ∀ {used used' node},
    nameOne used s = .ok (node, used') → node.isOpen = s.isOpen
  | .ask .., used, used', node, h => by cases h; rfl
  | .perform .., used, used', node, h => by cases h; rfl
  | .send .., used, used', node, h => by cases h; rfl
  | .stop .., used, used', node, h => by cases h; rfl
  | .header .., used, used', node, h => by cases h
  | .foreign .., used, used', node, h => by cases h
  | .conditional _ branches none, used, used', node, h => by
    rw [nameOne] at h
    obtain ⟨⟨arms, used₁⟩, _, h⟩ := Except.bind_eq_ok.mp h
    cases h
    -- Without a last resort there is an empty block.
    rw [Node.isOpen, nodesOpen, Bool.or_true, Statement.isOpen]
  | .conditional _ branches (some body), used, used', node, h => by
    rw [nameOne] at h
    obtain ⟨⟨arms, used₁⟩, hb, h⟩ := Except.bind_eq_ok.mp h
    obtain ⟨⟨nodes, used₂⟩, ha, h⟩ := Except.bind_eq_ok.mp h
    cases h
    rw [Node.isOpen, Statement.isOpen, nameBranches_open branches hb, nameAll_open body ha]

/-- The nodes of a block are open if the block is. -/
theorem nameAll_open : (body : List Statement) → ∀ {used used' nodes},
    nameAll used body = .ok (nodes, used') → nodesOpen nodes = blockOpen body
  | [], used, used', nodes, h => by cases h; rfl
  | [s], used, used', nodes, h => by
    rw [nameAll] at h
    obtain ⟨⟨node, used₁⟩, hs, h⟩ := Except.bind_eq_ok.mp h
    cases h
    rw [nodesOpen, blockOpen, nameOne_open s hs]
  | s :: t :: rest, used, used', nodes, h => by
    rw [nameAll] at h
    obtain ⟨⟨node, used₁⟩, _, h⟩ := Except.bind_eq_ok.mp h
    obtain ⟨⟨more, used₂⟩, hr, h⟩ := Except.bind_eq_ok.mp h
    cases h
    have hmore := nameAll_open (t :: rest) hr
    -- There is a node for the next statement, so the last node is among the rest.
    rw [nameAll] at hr
    obtain ⟨⟨next, used₃⟩, _, hr⟩ := Except.bind_eq_ok.mp hr
    obtain ⟨⟨others, used₄⟩, _, hr⟩ := Except.bind_eq_ok.mp hr
    cases hr
    rw [nodesOpen, blockOpen, hmore]

/-- One of the branches of nodes is open if one of the branches is. -/
theorem nameBranches_open : (branches : List Branch) → ∀ {used used' arms},
    nameBranches used branches = .ok (arms, used') → someArmOpen arms = someBranchOpen branches
  | [], used, used', arms, h => by cases h; rfl
  | ⟨_, body, _⟩ :: rest, used, used', arms, h => by
    rw [nameBranches] at h
    obtain ⟨⟨nodes, used₁⟩, hs, h⟩ := Except.bind_eq_ok.mp h
    obtain ⟨⟨more, used₂⟩, hr, h⟩ := Except.bind_eq_ok.mp h
    cases h
    rw [someArmOpen, someBranchOpen, nameAll_open body hs, nameBranches_open rest hr]

end

/-! ## What follows a block -/

theorem leadsTo_cons {id : String} {s : State} {states : List State} :
    LeadsTo id (s :: states) ↔ .str id ∈ s.targets ∨ LeadsTo id states := by
  simp [LeadsTo]

theorem leadsTo_append {id : String} {states states' : List State} :
    LeadsTo id (states ++ states') ↔ LeadsTo id states ∨ LeadsTo id states' := by
  simp [LeadsTo, or_and_right, exists_or]

theorem not_leadsTo_nil {id : String} : ¬ LeadsTo id [] := by simp [LeadsTo]

/-- A block is entered at an id that it does not have only if it is empty. -/
theorem entry_eq_iff {id follow : String} {nodes : List Node} (h : id ∉ idsAll nodes) :
    entry follow nodes = id ↔ follow = id ∧ nodes = [] := by
  cases nodes with
  | nil => simp [entry]
  | cons n rest =>
    have hmem : n.id ∈ idsAll (n :: rest) := by
      cases n <;> simp [Node.id, idsAll, Node.ids]
    have hne : n.id ≠ id := fun heq => h (heq ▸ hmem)
    simp [entry, hne]

/-- A choice leads to an id that none of its nodes has if this follows it and a block is empty. -/
theorem mem_targets_choice_iff {follow id x : String} (hx : x ≠ "") {arms : List Arm}
    {otherwise : List Node} (harms : x ∉ armIds arms) (hother : x ∉ idsAll otherwise) :
    .str x ∈ (State.make id (.choice (.list (exits follow arms))
      (.str (entry follow otherwise))) .null).targets ↔
    follow = x ∧ ((∃ arm ∈ arms, arm.nodes = []) ∨ otherwise = []) := by
  constructor
  · intro h
    rcases entry_of_mem_targets h with ⟨arm, harm, hentry⟩ | hentry
    · have harm' : x ∉ idsAll arm.nodes := fun hmem => harms (idsAll_sub_armIds harm x hmem)
      obtain ⟨hfollow, hnil⟩ := (entry_eq_iff harm').mp hentry.symm
      exact ⟨hfollow, Or.inl ⟨arm, harm, hnil⟩⟩
    · obtain ⟨hfollow, hnil⟩ := (entry_eq_iff hother).mp hentry.symm
      exact ⟨hfollow, Or.inr hnil⟩
  · rintro ⟨rfl, h⟩
    exact mem_targets_choice hx id h

/-- One of the branches is open. -/
theorem someArmOpen_iff {arms : List Arm} :
    someArmOpen arms = true ↔ ∃ arm ∈ arms, nodesOpen arm.nodes = true := by
  induction arms with
  | nil => simp [someArmOpen]
  | cons a rest ih =>
    obtain ⟨condition, nodes⟩ := a
    rw [someArmOpen, Bool.or_eq_true, ih, List.exists_mem_cons_iff]

-- The id is none of the nodes inside, so it can only be what follows the whole block, and it comes
-- to the nodes inside as what follows them: to the last one of each block, and to no other.
mutual

/-- A node leads to an id that is not its own if this follows the node and the node is open. -/
theorem leadsTo_linkOne {x : String} (hx : x ≠ "") : (n : Node) → ∀ {follow : String},
    n.Performs → x ∉ n.ids → (LeadsTo x (linkOne follow n) ↔ follow = x ∧ n.isOpen = true)
  | .action id body, follow, hp, _ => by
    rw [linkOne, leadsTo_cons, or_iff_left not_leadsTo_nil]
    constructor
    · intro h
      cases hp <;> exact ⟨(Json.str.inj (Linked.eq_of_mem_ite h)).symm, rfl⟩
    · rintro ⟨rfl, _⟩
      exact mem_targets_of_performs hp id hx
  | .stop id reason, follow, _, _ => by
    rw [linkOne, leadsTo_cons, or_iff_left not_leadsTo_nil]
    constructor
    · intro h
      cases h
    · rintro ⟨_, h⟩
      cases h
  | .choice id arms otherwise, follow, hp, hids => by
    rw [Node.ids, List.mem_cons, List.mem_append, not_or, not_or] at hids
    obtain ⟨_, harms, hother⟩ := hids
    rw [linkOne, leadsTo_cons, leadsTo_append, mem_targets_choice_iff hx harms hother,
      leadsTo_linkArms hx arms hp.1 harms, leadsTo_linkAll hx otherwise hp.2 hother, Node.isOpen,
      Bool.or_eq_true, someArmOpen_iff]
    -- An empty block makes the choice itself go on, any other one its last node.
    constructor
    · rintro (⟨rfl, ⟨arm, harm, hnil⟩ | rfl⟩ | ⟨rfl, arm, harm, _, hopen⟩ | ⟨rfl, _, hopen⟩)
      · exact ⟨rfl, Or.inl ⟨arm, harm, by rw [hnil, nodesOpen]⟩⟩
      · exact ⟨rfl, Or.inr (by rw [nodesOpen])⟩
      · exact ⟨rfl, Or.inl ⟨arm, harm, hopen⟩⟩
      · exact ⟨rfl, Or.inr hopen⟩
    · rintro ⟨rfl, ⟨arm, harm, hopen⟩ | hopen⟩
      · by_cases hnil : arm.nodes = []
        · exact Or.inl ⟨rfl, Or.inl ⟨arm, harm, hnil⟩⟩
        · exact Or.inr (Or.inl ⟨rfl, arm, harm, hnil, hopen⟩)
      · by_cases hnil : otherwise = []
        · exact Or.inl ⟨rfl, Or.inr hnil⟩
        · exact Or.inr (Or.inr ⟨rfl, hnil, hopen⟩)

/-- What follows a block is led to just if the block is not empty and open. -/
theorem leadsTo_linkAll {x : String} (hx : x ≠ "") : (nodes : List Node) → ∀ {follow : String},
    allPerform nodes → x ∉ idsAll nodes →
    (LeadsTo x (linkAll follow nodes) ↔ follow = x ∧ nodes ≠ [] ∧ nodesOpen nodes = true)
  | [], follow, _, _ => by simp [linkAll, not_leadsTo_nil]
  | [n], follow, hp, hids => by
    rw [idsAll, List.mem_append, not_or] at hids
    rw [linkAll, linkAll, List.append_nil, entry, leadsTo_linkOne hx n hp.1 hids.1, nodesOpen]
    simp
  | n :: m :: rest, follow, hp, hids => by
    rw [idsAll, List.mem_append, not_or] at hids
    -- The first node is followed by the second one.
    have hentry : entry follow (m :: rest) ≠ x := fun h =>
      absurd ((entry_eq_iff hids.2).mp h).2 (List.cons_ne_nil _ _)
    rw [linkAll, leadsTo_append, leadsTo_linkOne hx n hp.1 hids.1,
      leadsTo_linkAll hx (m :: rest) hp.2 hids.2, nodesOpen]
    simp [hentry]

/-- What follows branches is led to just if one of them is not empty and open. -/
theorem leadsTo_linkArms {x : String} (hx : x ≠ "") : (arms : List Arm) → ∀ {follow : String},
    armsPerform arms → x ∉ armIds arms → (LeadsTo x (linkArms follow arms) ↔
      follow = x ∧ ∃ arm ∈ arms, arm.nodes ≠ [] ∧ nodesOpen arm.nodes = true)
  | [], follow, _, _ => by simp [linkArms, not_leadsTo_nil]
  | ⟨_, nodes⟩ :: rest, follow, hp, hids => by
    rw [armIds, List.mem_append, not_or] at hids
    rw [linkArms, leadsTo_append, leadsTo_linkAll hx nodes hp.1 hids.1,
      leadsTo_linkArms hx rest hp.2 hids.2, List.exists_mem_cons_iff, and_or_left]

end

/-! ## The end state -/

/-- A label of a statement starts with a small letter, and not like the one of the end. -/
def StartsApart (label : String) : Prop :=
  ∃ c rest, label.toList = c :: rest ∧ c.isLower = true ∧ c ≠ 'e'

theorem startsApart_append {word : String} (text : String) (h : StartsApart word) :
    StartsApart (word ++ text) := by
  obtain ⟨c, rest, hw, hc⟩ := h
  exact ⟨c, rest ++ text.toList, by rw [String.toList_append, hw, List.cons_append], hc⟩

/-- The labels of statements do not start like the one of the end. -/
theorem startsApart_label {s : Statement} (h : s.isKnown = true) : StartsApart s.label := by
  cases s with
  | ask _ _ prompt =>
    exact startsApart_append prompt ⟨'a', "sk ".toList, by decide, by decide, by decide⟩
  | perform _ action =>
    exact startsApart_append action ⟨'d', "o ".toList, by decide, by decide, by decide⟩
  | send _ message recipient _ =>
    exact startsApart_append recipient (startsApart_append " to " (startsApart_append message
      ⟨'s', "end ".toList, by decide, by decide, by decide⟩))
  | stop _ reason =>
    exact startsApart_append reason ⟨'s', "top ".toList, by decide, by decide, by decide⟩
  | conditional _ branches _ =>
    cases branches with
    | nil =>
      show StartsApart "if"
      exact ⟨'i', "f".toList, by decide, by decide, by decide⟩
    | cons b rest =>
      exact startsApart_append b.condition ⟨'i', "f ".toList, by decide, by decide, by decide⟩
  | header => cases h
  | foreign => cases h

/-- The id for a label starts like the label. -/
theorem idFor_cons {label : String} {c : Char} {rest : List Char} (hl : label.toList = c :: rest)
    (hc : c.isLower = true) (used : List String) :
    ∃ more, (idFor used label).toList = c :: more := by
  obtain ⟨front, hslug⟩ := Text.slug_cons hl hc
  rcases Text.fresh_eq (Text.slug label) used with heq | ⟨n, heq⟩
  · exact ⟨front, by rw [idFor, heq, hslug]⟩
  · refine ⟨front ++ '_' :: Nat.toDigits 10 n, ?_⟩
    rw [idFor, heq]
    simp [toString, Nat.toList_repr, hslug]

/-- No statement has the id of the end. -/
theorem end_not_mem_idsFor {ls : List String} (h : ∀ l ∈ ls, StartsApart l) :
    ∀ used, "end" ∉ idsFor used ls := by
  induction ls with
  | nil => exact fun _ => List.not_mem_nil
  | cons l ls ih =>
    obtain ⟨⟨c, rest, hl, hc, hne⟩, h⟩ := List.forall_mem_cons.mp h
    intro used hmem
    rcases List.mem_cons.mp hmem with hend | hmem
    · obtain ⟨more, hmore⟩ := idFor_cons hl hc used
      rw [← hend] at hmore
      exact hne (List.cons.inj hmore).1.symm
    · exact ih h _ hmem

theorem slug_end : Text.slug "end" = "end" := by cbv

/-- The end state has the id of its label. -/
theorem idFor_end {body : List Statement} {nodes : List Node} {used : List String}
    (h : nameAll [] body = .ok (nodes, used)) : idFor used "end" = "end" := by
  have hknown := nameAll_eq_ok_iff.mp ⟨_, h⟩
  have hfree : "end" ∉ used := by
    rw [nameAll_labels body h]
    refine end_not_mem_idsFor (fun l hl => ?_) []
    obtain ⟨s, hs, rfl⟩ := List.mem_map.mp hl
    exact startsApart_label (hknown s hs)
  rw [idFor, slug_end, Text.fresh, if_neg hfree]

/-- An end state is needed just if the story is open. -/
theorem Named.needsEnd_eq {nodes : List Node} {used : List String} (h : Named nodes used) :
    needsEnd (idFor used "end") (linkAll (idFor used "end") nodes) = nodesOpen nodes := by
  have hne : idFor used "end" ≠ "" := (h.named _ (by simp)).ne_empty
  have hfree : idFor used "end" ∉ idsAll nodes := by
    rw [← h.ids]
    exact Text.fresh_not_mem _ used
  rw [Bool.eq_iff_iff, needsEnd_iff, leadsTo_linkAll hne nodes h.performs hfree]
  cases nodes with
  | nil => simp [linkAll, nodesOpen]
  | cons n rest =>
    -- Where there is a node there is a state, so only the links count.
    have hlinked : linkAll (idFor used "end") (n :: rest) ≠ [] := by
      cases n <;> exact List.cons_ne_nil _ _
    simp [hlinked]

/-! ## The graph -/

/-- Statements that can be built: a header, and behind it, also inside of conditionals, nothing but
    statements that a state can stand for. -/
def Buildable (statements : List Statement) : Prop :=
  ∃ source name body, statements = .header source name :: body ∧
    ∀ s ∈ preorderAll body, s.isKnown = true

/-- The graph that the statements behind a header are built into.  Its states are one for each
    statement, in order, and an end state if the story is open.  Their ids are different and not
    empty, and each is the first one for its label that no earlier state has. -/
structure IsBuiltFrom (g : Graph) (body : List Statement) : Prop where
  states : ∃ told, List.Forall₂ Statement.Matches (preorderAll body) told ∧
    g.nodes = told ++ if blockOpen body then [endState "end"] else []
  keyed : g.nodes.map (·.id) = g.keys.map .str
  nodup : g.keys.Nodup
  nonempty : ∀ key ∈ g.keys, key ≠ ""
  firstFree : ∀ k label, (labels body)[k]? = some label → ∃ id, g.keys[k]? = some id ∧
    Text.IsFirstFree (Text.slug label) (g.keys.take k) id

/-- The keys of a graph are the ids for the labels of the statements, and the end if it is
    needed. -/
theorem keys_graphOf {body : List Statement} {nodes : List Node} {used : List String}
    (h : nameAll [] body = .ok (nodes, used)) (name : String) (warnings : List String) :
    (graphOf name nodes used warnings).keys =
      idsFor [] (labels body) ++ if blockOpen body then ["end"] else [] := by
  have hnamed := named_of_nameAll h
  have hkeys : (graphOf name nodes used warnings).keys =
      (statesOf nodes used).map (·.id.display) := by
    simp [Graph.keys, graphOf, Graph.ofStates, Function.comp_def]
  rw [hkeys, hnamed.statesOf_ids, hnamed.needsEnd_eq, nameAll_open body h, idFor_end h,
    nameAll_labels body h, List.nil_append]

/-- The first keys are the ids for the first labels. -/
theorem take_keys_graphOf {body : List Statement} {nodes : List Node} {used : List String}
    (h : nameAll [] body = .ok (nodes, used)) (name : String) (warnings : List String) {k : Nat}
    (hk : k ≤ (labels body).length) :
    (graphOf name nodes used warnings).keys.take k = idsFor [] ((labels body).take k) := by
  rw [keys_graphOf h, List.take_append_of_le_length (by rw [length_idsFor]; exact hk), take_idsFor]

/-- The graph of named statements is built from the statements. -/
theorem isBuiltFrom_graphOf {body : List Statement} {nodes : List Node} {used : List String}
    (h : nameAll [] body = .ok (nodes, used)) (name : String) (warnings : List String) :
    IsBuiltFrom (graphOf name nodes used warnings) body := by
  have hnamed := named_of_nameAll h
  have hwell := wellFormed_graphOf hnamed name warnings
  refine ⟨⟨linkAll (idFor used "end") nodes, ?_, ?_⟩, hwell.toKeyed.ids, hwell.nodup,
    fun key hk => (hwell.named key hk).ne_empty, fun k label hlabel => ?_⟩
  · have htold : List.Forall₂ (Tells (Named.Met nodes used)) (blockPositions [] body)
        (linkAll (idFor used "end") nodes) := nameAll_told body h hnamed.agree_met
    rw [← map_blockPositions body [], List.forall₂_map_left_iff]
    exact htold.imp fun _ _ ht => ht.1
  · rw [nodes_graphOf, statesOf_eq, endsOf, hnamed.needsEnd_eq, nameAll_open body h, idFor_end h]
  · -- In front of the end state, the keys are the ids for the labels.
    have hk : k < (labels body).length := (List.getElem?_eq_some_iff.mp hlabel).1
    have hid : (idsFor [] (labels body))[k]? = _ := getElem?_idsFor hlabel
    rw [take_keys_graphOf h name warnings (Nat.le_of_lt hk), ← take_idsFor, keys_graphOf h,
      List.getElem?_append_left (by rw [length_idsFor]; exact hk)]
    exact ⟨_, hid, Text.isFirstFree_fresh _ _⟩

/-- Only statements that can be built are. -/
theorem ofStatements_of_not_buildable {statements : List Statement} (h : ¬ Buildable statements) :
    ∃ fault, Graph.ofStatements statements = .error (.graph fault) := by
  cases statements with
  | nil => exact ⟨.missingHeader, rfl⟩
  | cons s body =>
    cases s with
    | header source name =>
      cases hname : nameAll [] body with
      | ok r => exact absurd ⟨source, name, body, rfl, nameAll_eq_ok_iff.mp ⟨r, hname⟩⟩ h
      | error fault => exact ⟨fault, by rw [Graph.ofStatements, states_eq, hname]; rfl⟩
    | _ => exact ⟨.missingHeader, rfl⟩

/-- Statements that can be built are. -/
theorem exists_ofStatements_of_buildable {statements : List Statement} (h : Buildable statements) :
    ∃ g, Graph.ofStatements statements = .ok g := by
  obtain ⟨source, name, body, rfl, hknown⟩ := h
  exact exists_ofStatements source name ((allPlain_iff body).mpr hknown)

/-- Twice the same action, and a stop behind which the story goes on. -/
def repeatedStatements : List Statement :=
  [.header ⟨1, "Flow: A"⟩ "A", .perform ⟨2, "Do: x"⟩ "x",
    .conditional ⟨3, "If c:"⟩ [⟨"c", [.perform ⟨4, "Do: x!"⟩ "x!"], 3⟩]
      (some [.stop ⟨6, "Stop"⟩ ""])]

end Swimlane.Story
