import Swimlane.Proofs.Placement

/-!
# A breadth-first search finds shortest paths

The queue of a breadth-first search holds at most two neighbouring levels, the nearer one in front.
So a node is met at the end of a shortest path, and nodes are met in the order of their distances.
A flow is searched in this way twice: for the states that can be reached, and for the columns of
its diagram.  Both searches meet the same states in the same order.

## Key results

- `Search.Levelled.step`: one step keeps the queue in levels
- `Search.le_of_walk`, `Search.exists_walk_of_mem`: no walk to a node that is met is shorter than
  its distance, and one has this length
- `Graph.Keyed.mem_distances_iff_isDistance`: the distances of a graph are shortest paths
- `Graph.searches_agree`: the order of the reachable states and the columns of all states
-/

namespace Swimlane

namespace Search

variable {α : Type}

/-! ## Walks -/

/-- A walk of a number of steps from one node to another. -/
inductive Walk (r : α → α → Prop) : Nat → α → α → Prop
  | nil (a : α) : Walk r 0 a a
  | snoc {n : Nat} {a b c : α} (walk : Walk r n a b) (step : r b c) : Walk r (n + 1) a c

/-- The length of a shortest walk. -/
def IsDistance (r : α → α → Prop) (a b : α) (n : Nat) : Prop :=
  Walk r n a b ∧ ∀ m, Walk r m a b → n ≤ m

/-- A step of a search goes to a node that was not met yet. -/
def Into (next : α → List α) (pool : List α) (a b : α) : Prop := b ∈ next a ∧ b ∈ pool

theorem Walk.mono {r r' : α → α → Prop} (h : ∀ a b, r a b → r' a b) {n : Nat} {a b : α}
    (hw : Walk r n a b) : Walk r' n a b := by
  induction hw with
  | nil a => exact .nil a
  | snoc _ hstep ih => exact .snoc ih (h _ _ hstep)

/-- A walk may begin one step earlier. -/
theorem Walk.cons {r : α → α → Prop} {n : Nat} {a b c : α} (hstep : r a b) (hw : Walk r n b c) :
    Walk r (n + 1) a c := by
  induction hw with
  | nil b => exact .snoc (.nil a) hstep
  | snoc _ hlast ih => exact .snoc (ih hstep) hlast

/-- A walk stays where it is or begins with a step. -/
theorem Walk.first {r : α → α → Prop} {n : Nat} {a b : α} (hw : Walk r n a b) :
    a = b ∨ ∃ c, r a c := by
  induction hw with
  | nil a => exact Or.inl rfl
  | snoc _ hstep ih =>
    cases ih with
    | inl heq => subst heq; exact Or.inr ⟨_, hstep⟩
    | inr hfirst => exact Or.inr hfirst

/-- A distance is told by the ends. -/
theorem IsDistance.unique {r : α → α → Prop} {a b : α} {m n : Nat} (hm : IsDistance r a b m)
    (hn : IsDistance r a b n) : m = n :=
  Nat.le_antisymm (hm.2 n hn.1) (hn.2 m hm.1)

/-- Where a walk leads there is a shortest one. -/
theorem Walk.exists_isDistance {r : α → α → Prop} {n : Nat} {a b : α} (hw : Walk r n a b) :
    ∃ m, IsDistance r a b m := by
  classical
  have hex : ∃ m, Walk r m a b := ⟨n, hw⟩
  exact ⟨Nat.find hex, Nat.find_spec hex, fun m hm => Nat.find_min' hex hm⟩

/-- A walk either keeps away from some nodes, or a shorter walk that does starts at one of them. -/
theorem Walk.cut {next : α → List α} {pool found rest : List α}
    (hpool : ∀ y ∈ pool, y ∈ found ∨ y ∈ rest) {n : Nat} {x y : α}
    (hw : Walk (Into next pool) n x y) :
    Walk (Into next rest) n x y ∨ ∃ z ∈ found, ∃ m < n, Walk (Into next rest) m z y := by
  induction hw with
  | nil a => exact Or.inl (.nil a)
  | @snoc n a b c _ hstep ih =>
    by_cases hc : c ∈ found
    · -- The walk arrives at one of the nodes with its last step.
      exact Or.inr ⟨c, hc, 0, by omega, .nil c⟩
    · have hlast : Into next rest b c := ⟨hstep.1, (hpool c hstep.2).resolve_left hc⟩
      cases ih with
      | inl hwalk => exact Or.inl (.snoc hwalk hlast)
      | inr hlater =>
        obtain ⟨z, hz, m, hm, hwalk⟩ := hlater
        exact Or.inr ⟨z, hz, m + 1, by omega, .snoc hwalk hlast⟩

/-! ## Levels -/

variable [DecidableEq α]

/-- The pool is divided into what is discovered and what is left. -/
theorem discover_perm (pool ts : List α) :
    ((discover pool ts).1 ++ (discover pool ts).2).Perm pool := by
  induction ts generalizing pool with
  | nil => exact List.Perm.refl pool
  | cons t ts ih =>
    unfold discover
    split
    · rename_i ht
      exact ((ih (pool.erase t)).cons t).trans (List.perm_cons_erase ht).symm
    · exact ih pool

/-- A queue in levels: what stands behind is farther, by one step at most. -/
def Levelled (queue : List (α × Nat)) : Prop :=
  queue.Pairwise fun p q => p.2 ≤ q.2 ∧ q.2 ≤ p.2 + 1

omit [DecidableEq α] in
/-- When the first node of the queue gives way to its successors, the queue stays in levels. -/
theorem Levelled.step {x : α} {depth : Nat} {rest : List (α × Nat)}
    (h : Levelled ((x, depth) :: rest)) (found : List α) :
    Levelled (rest ++ found.map (·, depth + 1)) := by
  obtain ⟨hfirst, hrest⟩ := List.pairwise_cons.mp h
  unfold Levelled
  rw [List.pairwise_append]
  refine ⟨hrest, ?_, ?_⟩
  · -- The successors are all on one level.
    rw [List.pairwise_map]
    exact List.pairwise_of_forall fun _ _ => ⟨Nat.le_refl _, Nat.le_succ _⟩
  · intro p hp q hq
    obtain ⟨y, _, rfl⟩ := List.mem_map.mp hq
    have := hfirst p hp
    dsimp only at this ⊢
    omega

/-! ## Searching -/

section Searching

variable {next : α → List α} {pool : List α} {queue : List (α × Nat)}

/-- What the next step finds in its queue and its pool is what was in the pool and the queue,
    the first node of the queue apart. -/
theorem perm_step (next : α → List α) (pool : List α) (x : α) (depth : Nat)
    (rest : List (α × Nat)) :
    ((rest ++ (discover pool (next x)).1.map (·, depth + 1)).map (·.1) ++
      (discover pool (next x)).2).Perm (rest.map (·.1) ++ pool) := by
  have hfound : ((discover pool (next x)).1.map (·, depth + 1)).map (·.1) =
      (discover pool (next x)).1 := by
    rw [List.map_map]
    exact List.map_id' _
  rw [List.map_append, hfound, List.append_assoc]
  exact (discover_perm pool (next x)).append_left _

/-- What is met was in the queue or in the pool. -/
theorem mem_of_mem_breadthFirst {y : α} (h : y ∈ (breadthFirst next pool queue).map (·.1)) :
    y ∈ queue.map (·.1) ++ pool := by
  fun_induction breadthFirst next pool queue with
  | case1 => cases h
  | case2 pool x depth rest r ih =>
    rw [List.map_cons, List.mem_cons] at h
    rw [List.map_cons, List.cons_append, List.mem_cons]
    exact h.imp_right fun hy => (perm_step next pool x depth rest).mem_iff.mp (ih hy)

/-- No node is met twice. -/
theorem nodup_breadthFirst (h : (queue.map (·.1) ++ pool).Nodup) :
    ((breadthFirst next pool queue).map (·.1)).Nodup := by
  fun_induction breadthFirst next pool queue with
  | case1 => exact List.nodup_nil
  | case2 pool x depth rest r ih =>
    rw [List.map_cons, List.cons_append, List.nodup_cons] at h
    rw [List.map_cons, List.nodup_cons]
    have hperm := perm_step next pool x depth rest
    refine ⟨fun hx => h.1 ?_, ih (hperm.nodup_iff.mpr h.2)⟩
    exact hperm.mem_iff.mp (mem_of_mem_breadthFirst hx)

/-- A node is met at the end of a walk from a node of the queue, and its distance is the length of
    the walk. -/
theorem exists_walk_of_mem {y : α} {n : Nat} (h : (y, n) ∈ breadthFirst next pool queue) :
    ∃ x d m, (x, d) ∈ queue ∧ n = d + m ∧ Walk (Into next pool) m x y := by
  fun_induction breadthFirst next pool queue with
  | case1 => cases h
  | case2 pool z depth rest r ih =>
    cases List.mem_cons.mp h with
    | inl heq =>
      cases heq
      exact ⟨y, n, 0, List.mem_cons_self, rfl, .nil y⟩
    | inr h =>
      obtain ⟨x, d, m, hx, rfl, hwalk⟩ := ih h
      have hwalk : Walk (Into next pool) m x y :=
        hwalk.mono fun a b hab => ⟨hab.1, mem_pool_of_mem_discover (Or.inr hab.2)⟩
      cases List.mem_append.mp hx with
      | inl hx => exact ⟨x, d, m, List.mem_cons_of_mem _ hx, rfl, hwalk⟩
      | inr hx =>
        -- The walk begins at a node that was discovered just now, so one step earlier.
        obtain ⟨x', hr, heq⟩ := List.mem_map.mp hx
        cases heq
        have hstep : Into next pool z x :=
          ⟨mem_of_mem_discover hr, mem_pool_of_mem_discover (Or.inl hr)⟩
        exact ⟨z, depth, m + 1, List.mem_cons_self, by omega, hwalk.cons hstep⟩

/-- No walk from the queue to a node that is met is shorter than the distance of the node. -/
theorem le_of_walk (hl : Levelled queue) (hn : (queue.map (·.1) ++ pool).Nodup) {x y : α}
    {d m n : Nat} (hy : (y, n) ∈ breadthFirst next pool queue) (hx : (x, d) ∈ queue)
    (hw : Walk (Into next pool) m x y) : n ≤ d + m := by
  fun_induction breadthFirst next pool queue generalizing x d m with
  | case1 => cases hx
  | case2 pool z depth rest r ih =>
    rw [List.map_cons, List.cons_append, List.nodup_cons] at hn
    have hperm := perm_step next pool z depth rest
    -- All that is in the queue is at least as far as its first node.
    have hfirst : depth ≤ d := by
      cases List.mem_cons.mp hx with
      | inl heq => cases heq; exact Nat.le_refl depth
      | inr hx => exact ((List.pairwise_cons.mp hl).1 _ hx).1
    cases List.mem_cons.mp hy with
    | inl heq =>
      cases heq
      omega
    | inr hy =>
      have hmin : ∀ {x d m}, (x, d) ∈ rest ++ r.1.map (·, depth + 1) →
          Walk (Into next r.2) m x y → n ≤ d + m :=
        ih (hl.step r.1) (hperm.nodup_iff.mpr hn.2) hy
      cases hw.cut fun w hw => mem_discover (next z) hw with
      | inr hlater =>
        -- The last node of the walk that is discovered now is on the next level.
        obtain ⟨w, hr, k, hk, hwalk⟩ := hlater
        have hw : (w, depth + 1) ∈ rest ++ r.1.map (·, depth + 1) :=
          List.mem_append_right _ (List.mem_map.mpr ⟨w, hr, rfl⟩)
        have := hmin hw hwalk
        omega
      | inl hwalk =>
        cases List.mem_cons.mp hx with
        | inr hx => exact hmin (List.mem_append_left _ hx) hwalk
        | inl heq =>
          -- A walk from the first node itself begins with a node that is discovered now.
          cases heq
          exfalso
          cases hwalk.first with
          | inl heq =>
            subst heq
            have hmet := List.mem_map_of_mem (f := (·.1)) hy
            exact hn.1 (hperm.mem_iff.mp (mem_of_mem_breadthFirst hmet))
          | inr hstep =>
            obtain ⟨w, hnext, hleft⟩ := hstep
            have hfound := mem_discover_fst (mem_pool_of_mem_discover (Or.inr hleft)) hnext
            have hpool : (r.1 ++ r.2).Nodup :=
              (discover_perm pool (next z)).nodup_iff.mpr hn.2.of_append_right
            exact (List.nodup_append.mp hpool).2.2 w hfound w hleft rfl

/-- Nodes are met in the order of their distances. -/
theorem sorted_breadthFirst (hl : Levelled queue) :
    (breadthFirst next pool queue).Pairwise fun p q => p.2 ≤ q.2 := by
  fun_induction breadthFirst next pool queue with
  | case1 => exact .nil
  | case2 pool x depth rest r ih =>
    rw [List.pairwise_cons]
    refine ⟨?_, ih (hl.step r.1)⟩
    intro q hq
    obtain ⟨y, d, m, hy, hqd, _⟩ := exists_walk_of_mem hq
    -- Whatever is in the queue after the step is at least as far as the first node.
    have hd : depth ≤ d := by
      cases List.mem_append.mp hy with
      | inl hy => exact ((List.pairwise_cons.mp hl).1 _ hy).1
      | inr hy =>
        obtain ⟨_, _, heq⟩ := List.mem_map.mp hy
        cases heq
        omega
    dsimp only
    omega

end Searching

end Search

namespace Graph

/-! ## Distances in a graph -/

/-- An edge leads from a state to a state that exists. -/
def Steps (g : Graph) (a b : String) : Prop := g.Leads a b ∧ b ∈ g.keys

/-- A path of edges through existing states leads from one state to another. -/
def Connects (g : Graph) (a b : String) : Prop := ∃ n, Search.Walk g.Steps n a b

/-- The number of edges on a shortest path. -/
def IsDistance (g : Graph) : String → String → Nat → Prop := Search.IsDistance g.Steps

/-- A path that comes back to its origin has a part that does not. -/
theorem exists_walk_away {g : Graph} (h : g.Keyed) {origin key : String} {n : Nat}
    (hw : Search.Walk g.Steps n origin key) : ∃ m ≤ n,
      Search.Walk (Search.Into g.successors (g.keys.erase origin)) m origin key := by
  induction hw with
  | nil a => exact ⟨0, Nat.le_refl 0, .nil a⟩
  | @snoc n a b c _ hstep ih =>
    by_cases hc : c = a
    · subst hc
      exact ⟨0, Nat.zero_le _, .nil c⟩
    · obtain ⟨m, hm, hwalk⟩ := ih
      have hinto : Search.Into g.successors (g.keys.erase a) b c :=
        ⟨h.mem_successors_iff.mpr hstep.1, (List.mem_erase_of_ne hc).mpr hstep.2⟩
      exact ⟨m + 1, by omega, hwalk.snoc hinto⟩

/-- Where a path leads there is a state, and the path is one of the graph. -/
theorem reaches_of_walk {g : Graph} {origin key : String} {n : Nat}
    (hw : Search.Walk g.Steps n origin key) (ho : origin ∈ g.keys) :
    key ∈ g.keys ∧ g.Reaches origin key := by
  induction hw with
  | nil a => exact ⟨ho, .refl⟩
  | snoc _ hstep ih => exact ⟨hstep.2, (ih ho).2.tail hstep.1⟩

section Distances

variable {g : Graph} {origin : String}

/-- Every state is in the pool or in the queue when a search begins, and none in both. -/
theorem Keyed.perm_start (ho : origin ∈ g.keys) :
    ([(origin, 0)].map (·.1) ++ g.keys.erase origin).Perm g.keys :=
  (List.perm_cons_erase ho).symm

/-- The forward search gives the states that exist with their distances from the origin. -/
theorem Keyed.mem_distances_iff_isDistance (h : g.Keyed) (ho : origin ∈ g.keys) {key : String}
    {n : Nat} : (key, n) ∈ g.distances origin ↔ g.IsDistance origin key n := by
  have hnodup := (perm_start ho).nodup_iff.mpr h.nodup
  -- What the search meets it meets at the end of a shortest path.
  have hmet : ∀ {n}, (key, n) ∈ g.distances origin → g.IsDistance origin key n := by
    intro n hmem
    rw [distances, if_pos ho] at hmem
    obtain ⟨x, d, m, hx, hn, hwalk⟩ := Search.exists_walk_of_mem hmem
    cases List.mem_singleton.mp hx
    rw [hn, Nat.zero_add]
    constructor
    · exact hwalk.mono fun a b hab => ⟨h.mem_successors_iff.mp hab.1, List.mem_of_mem_erase hab.2⟩
    · intro m' hwalk'
      obtain ⟨k, hk, haway⟩ := exists_walk_away h hwalk'
      have := Search.le_of_walk (List.pairwise_singleton _ _) hnodup hmem hx haway
      omega
  constructor
  · exact hmet
  · intro hdist
    have hreaches := reaches_of_walk hdist.1 ho
    obtain ⟨⟨key', m⟩, hmem, heq⟩ := List.mem_map.mp ((h.mem_distances_iff ho).mpr hreaches)
    cases heq
    rw [hdist.unique (hmet hmem)]
    exact hmem

/-- The forward search meets the states that are connected with the origin. -/
theorem Keyed.mem_distances_iff_connects (h : g.Keyed) (ho : origin ∈ g.keys) {key : String} :
    key ∈ (g.distances origin).map (·.1) ↔ g.Connects origin key := by
  constructor
  · intro hmem
    obtain ⟨⟨key', n⟩, hpair, rfl⟩ := List.mem_map.mp hmem
    exact ⟨n, ((h.mem_distances_iff_isDistance ho).mp hpair).1⟩
  · rintro ⟨n, hwalk⟩
    obtain ⟨m, hdist⟩ := hwalk.exists_isDistance
    exact List.mem_map.mpr ⟨_, (h.mem_distances_iff_isDistance ho).mpr hdist, rfl⟩

/-- What a search from an origin has to answer: the states that are connected with the origin, each
    once, the origin first and the nearer ones before the farther ones. -/
structure IsSearchOrder (g : Graph) (origin : String) (order : List String) : Prop where
  first : order.head? = some origin
  nodup : order.Nodup
  mem : ∀ key, key ∈ order ↔ g.Connects origin key
  sorted : order.Pairwise fun a b =>
    ∀ m n, g.IsDistance origin a m → g.IsDistance origin b n → m ≤ n

/-- The forward search answers in this order. -/
theorem Keyed.isSearchOrder_distances (h : g.Keyed) (ho : origin ∈ g.keys) :
    g.IsSearchOrder origin ((g.distances origin).map (·.1)) := by
  constructor
  · rw [distances, if_pos ho, Search.breadthFirst]
    rfl
  · rw [distances, if_pos ho]
    exact Search.nodup_breadthFirst ((perm_start ho).nodup_iff.mpr h.nodup)
  · exact fun key => h.mem_distances_iff_connects ho
  · have hsorted : (g.distances origin).Pairwise fun p q => p.2 ≤ q.2 := by
      rw [distances, if_pos ho]
      exact Search.sorted_breadthFirst (List.pairwise_singleton _ _)
    rw [List.pairwise_map]
    apply hsorted.imp_of_mem
    intro p q hp hq hle m n hm hn
    rw [hm.unique ((h.mem_distances_iff_isDistance ho).mp hp),
      hn.unique ((h.mem_distances_iff_isDistance ho).mp hq)]
    exact hle

end Distances

/-! ## Both searches -/

/-- A graph that can be searched: its states are stored under their ids, their edges can be listed,
    and the start and all targets are values that may be looked up. -/
structure Searchable (g : Graph) : Prop extends Keyed g where
  start : g.start.isName = true
  listed : ∀ s ∈ g.nodes, s.edgeMisfit? = none
  names : ∀ s ∈ g.nodes, ∀ t ∈ s.targets, t.isName = true

/-- A graph that is assembled of states with texts can be searched. -/
theorem Assembled.searchable {g : Graph} (h : g.Assembled) : g.Searchable := by
  refine ⟨h.toKeyed, h.start, fun s hs => (h.typed s hs).listed, fun s hs t ht => ?_⟩
  obtain ⟨id, rfl⟩ := (h.typed s hs).targets t ht
  rfl

section Searches

variable {g : Graph}

theorem Searchable.stepMisfit?_eq_none (h : g.Searchable) (key : String) :
    g.stepMisfit? key = none := by
  cases hf : g.find? key with
  | none => simp [stepMisfit?, hf]
  | some s =>
    have hs := mem_nodes_of_find? hf
    simpa [stepMisfit?, hf, h.listed s hs] using h.names s hs

/-- What is met from the start: the states that are connected with it if it exists, else nothing. -/
theorem Searchable.explore_start (h : g.Searchable) :
    (∀ start ∈ g.keys, g.start = .str start → g.explore g.start = .ok (g.distances start)) ∧
    ((¬ ∃ start ∈ g.keys, g.start = .str start) → g.explore g.start = .ok []) := by
  refine ⟨fun start _ hstart => ?_, fun hno => ?_⟩
  · rw [hstart]
    exact explore_of_steps h.stepMisfit?_eq_none start
  · cases hs : g.start with
    | str start =>
      have hout : start ∉ g.keys := fun hmem => hno ⟨start, hmem, hs⟩
      rw [explore_of_steps h.stepMisfit?_eq_none, distances, if_neg hout]
    | arr items => have hname := h.start; rw [hs] at hname; cases hname
    | obj members => have hname := h.start; rw [hs] at hname; cases hname
    | _ => rfl

/-- The states that can be reached from a key are those that the search meets. -/
theorem Searchable.reachable_str (h : g.Searchable) {origin : String} (hne : origin ≠ "") :
    g.reachable (.str origin) = .ok ((g.distances origin).map (·.1)) := by
  have hgiven : (Json.str origin).isGiven = true := by simpa [Json.isGiven] using hne
  rw [reachable, if_pos hgiven, explore_of_steps h.stepMisfit?_eq_none]
  rfl

/-- The states that can be reached are those that the search from the start meets. -/
theorem reachable_null {met : List (String × Nat)} (h : g.explore g.start = .ok met) :
    g.reachable .null = .ok (met.map (·.1)) := by
  have hgiven : ¬ Json.null.isGiven = true := by decide
  rw [reachable, if_neg hgiven, h]
  rfl

end Searches

end Graph

namespace Diagram

/-- States that have no column yet get the given one, in their order. -/
theorem fillColumns_eq (column : Nat) {ids : List String} (hn : ids.Nodup)
    (columns : List (String × Nat)) :
    fillColumns column (columns.map fun p => (.str p.1, p.2)) (ids.map .str) =
      (columns ++ (ids.filter (· ∉ columns.map (·.1))).map (·, column)).map
        fun p => (.str p.1, p.2) := by
  induction ids generalizing columns with
  | nil => simp [fillColumns]
  | cons id rest ih =>
    obtain ⟨hid, hrest⟩ := List.nodup_cons.mp hn
    rw [List.map_cons, fillColumns, Assoc.get?_str]
    by_cases hmem : id ∈ columns.map (·.1)
    · obtain ⟨n, hget⟩ := Assoc.exists_get? hmem
      rw [hget, List.filter_cons_of_neg (by simpa using hmem)]
      exact ih hrest columns
    · -- The new entry does not matter to the rest, in which the id does not occur again.
      have hsame : rest.filter (· ∉ (columns ++ [(id, column)]).map (·.1)) =
          rest.filter (· ∉ columns.map (·.1)) := by
        apply List.filter_congr
        intro x hx
        have hne : x ≠ id := fun heq => hid (heq ▸ hx)
        simp [hne]
      have hmore := ih hrest (columns ++ [(id, column)])
      rw [hsame, List.map_append] at hmore
      rw [Assoc.get?_eq_none hmem, List.filter_cons_of_pos (by simpa using hmem)]
      simpa using hmore

/-- The columns of a graph: first the states that the search meets, then all others, right behind
    the farthest of the first. -/
theorem assignColumns_eq {g : Graph} (h : g.Keyed) {met : List (String × Nat)}
    (hmet : g.explore g.start = .ok met) :
    assignColumns g = .ok ((met ++ (g.keys.filter (· ∉ met.map (·.1))).map
      (·, above (met.map (·.2)))).map fun p => (.str p.1, p.2)) := by
  have hnames : (g.nodes.map (·.id)).all Json.isName = true := by
    rw [List.all_map]
    exact h.all_isName
  simp only [assignColumns, hmet, hnames, bind, Except.bind, Bool.not_true, Bool.false_eq_true,
    ↓reduceIte]
  rw [h.ids, fillColumns_eq _ h.nodup]
  rfl

end Diagram

namespace Graph

open Diagram (above assignColumns assignColumns_eq lt_above exists_mem_above)

/-- The depths of the states of a graph that starts at a state: every state has one, the states that
    are connected with the start have it in the order of the search, and it is their distance; all
    others are one step behind the farthest of them. -/
structure DepthsFrom (g : Graph) (start : String) (order : List String)
    (columns : List (Json × Nat)) : Prop where
  searched : g.IsSearchOrder start order
  discovered : order.map .str <+: columns.map (·.1)
  each : (columns.map (·.1)).Perm (g.keys.map .str)
  reached : ∀ key ∈ order, ∀ n, (.str key, n) ∈ columns → g.IsDistance start key n
  unreached : ∀ key ∉ order, ∀ n, (.str key, n) ∈ columns →
    ∃ last, IsGreatest {m | ∃ k, g.IsDistance start k m} last ∧ n = last + 1
  edges : ∀ key ∈ order, ∀ next, g.Leads key next → ∀ m n, (.str key, m) ∈ columns →
    (.str next, n) ∈ columns → n ≤ m + 1

section Depths

variable {g : Graph} {start : String}

/-- The farthest states that are met are one step before what is above all distances. -/
theorem Keyed.isGreatest_distances (h : g.Keyed) (hs : start ∈ g.keys) :
    ∃ last, IsGreatest {m | ∃ k, g.IsDistance start k m} last ∧
      above ((g.distances start).map (·.2)) = last + 1 := by
  have hne : (g.distances start).map (·.2) ≠ [] := by
    rw [distances, if_pos hs, Search.breadthFirst]
    simp
  obtain ⟨last, hmem, habove⟩ := exists_mem_above hne
  refine ⟨last, ⟨?_, fun m hm => ?_⟩, habove⟩
  · obtain ⟨⟨k, n⟩, hk, rfl⟩ := List.mem_map.mp hmem
    exact ⟨k, (h.mem_distances_iff_isDistance hs).mp hk⟩
  · obtain ⟨k, hk⟩ := hm
    have hlt := lt_above (List.mem_map_of_mem (f := (·.2))
      ((h.mem_distances_iff_isDistance hs).mpr hk))
    dsimp only at hlt
    omega

/-- An entry among the columns is one of the search, or one of a state that is not met. -/
theorem mem_columns_iff {met : List (String × Nat)} {overflow n : Nat} {key : String} :
    (Json.str key, n) ∈ (met ++ (g.keys.filter (· ∉ met.map (·.1))).map (·, overflow)).map
      (fun p => (Json.str p.1, p.2)) ↔
      (key, n) ∈ met ∨ (key ∈ g.keys ∧ key ∉ met.map (·.1)) ∧ n = overflow := by
  have hinj : Function.Injective fun p : String × Nat => (Json.str p.1, p.2) := by
    intro p q heq
    simp only [Prod.mk.injEq, Json.str.injEq] at heq
    exact Prod.ext heq.1 heq.2
  rw [show (Json.str key, n) = (fun p : String × Nat => (Json.str p.1, p.2)) (key, n) from rfl,
    List.mem_map_of_injective hinj, List.mem_append, List.mem_map]
  apply or_congr_right
  constructor
  · rintro ⟨k, hk, heq⟩
    cases heq
    exact ⟨by simpa using hk, rfl⟩
  · rintro ⟨hk, rfl⟩
    exact ⟨key, by simpa using hk, rfl⟩

/-- The ids among the columns: those that are met, and behind them all others. -/
theorem columns_ids (met : List (String × Nat)) (overflow : Nat) :
    ((met ++ (g.keys.filter (· ∉ met.map (·.1))).map (·, overflow)).map
      fun p => (Json.str p.1, p.2)).map (·.1) =
    (met.map (·.1) ++ g.keys.filter (· ∉ met.map (·.1))).map .str := by
  simp [Function.comp_def]

/-- If the start exists, the columns are depths. -/
theorem Keyed.depthsFrom (h : g.Keyed) (hs : start ∈ g.keys) :
    g.DepthsFrom start ((g.distances start).map (·.1))
      ((g.distances start ++ (g.keys.filter (· ∉ (g.distances start).map (·.1))).map
        (·, above ((g.distances start).map (·.2)))).map fun p => (.str p.1, p.2)) := by
  have horder := h.isSearchOrder_distances hs
  constructor
  · exact horder
  · rw [columns_ids, List.map_append]
    exact List.prefix_append _ _
  · -- The states that are met and those that are not make up all keys.
    rw [columns_ids]
    apply List.Perm.map
    have hdisjoint : ((g.distances start).map (·.1) ++
        g.keys.filter (· ∉ (g.distances start).map (·.1))).Nodup := by
      rw [List.nodup_append]
      refine ⟨horder.nodup, h.nodup.filter _, fun a ha b hb heq => ?_⟩
      subst heq
      simp only [List.mem_filter, decide_eq_true_eq] at hb
      exact hb.2 ha
    apply (List.perm_ext_iff_of_nodup hdisjoint h.nodup).mpr
    intro key
    have hmet : key ∈ (g.distances start).map (·.1) → key ∈ g.keys := fun hkey =>
      ((h.mem_distances_iff hs).mp hkey).1
    simp only [List.mem_append, List.mem_filter, decide_eq_true_eq]
    tauto
  · intro key hkey n hmem
    cases mem_columns_iff.mp hmem with
    | inl hmet => exact (h.mem_distances_iff_isDistance hs).mp hmet
    | inr hnot => exact absurd hkey hnot.1.2
  · intro key hkey n hmem
    cases mem_columns_iff.mp hmem with
    | inl hmet => exact absurd (List.mem_map_of_mem (f := (·.1)) hmet) hkey
    | inr hnot =>
      rw [hnot.2]
      exact h.isGreatest_distances hs
  · intro key hkey next hlead m n hm hn
    have hdist : g.IsDistance start key m := by
      cases mem_columns_iff.mp hm with
      | inl hmet => exact (h.mem_distances_iff_isDistance hs).mp hmet
      | inr hnot => exact absurd hkey hnot.1.2
    -- One more edge leads to the target, so the target is met as well.
    have hwalk : next ∈ g.keys → Search.Walk g.Steps (m + 1) start next := fun hnext =>
      hdist.1.snoc ⟨hlead, hnext⟩
    cases mem_columns_iff.mp hn with
    | inl hmet =>
      have hnext := (h.mem_distances_iff_isDistance hs).mp hmet
      exact hnext.2 _ (hwalk (reaches_of_walk hnext.1 hs).1)
    | inr hnot =>
      have hmet := (h.mem_distances_iff_connects hs).mpr ⟨_, hwalk hnot.1.1⟩
      exact absurd hmet hnot.1.2

end Depths

/-- A graph with a cycle, a loop, two edges to one state, an edge that leads nowhere, and a state
    that nothing leads to. -/
def tangledFlow : Graph :=
  { name := "Tangle"
    start := .str "ask"
    states := [
      ("ask", State.make "ask" (.choice (.list [⟨.str "x", .str "work"⟩, ⟨.str "y", .str "work"⟩,
        ⟨.str "z", .str "gone"⟩]) (.str "ask")) .null),
      ("rest", State.make "rest" (.stop (.str "")) .null),
      ("work", State.make "work" (.task (.str "work")) (.str "check")),
      ("check", State.make "check" (.task (.str "check")) (.str "ask"))]
    warnings := [] }

/-- A graph with a state that has an empty name.  The next state is the start, because an empty name
    counts as none. -/
def namelessFlow : Except Failure Graph :=
  [State.make "" (.stop (.str "")) .null, State.make "a" (.stop (.str "")) .null].foldlM add
    (empty "F")

end Graph

end Swimlane
