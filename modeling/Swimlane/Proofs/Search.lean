import Mathlib.Logic.Relation
import Swimlane.Graph.Search

/-!
# What a breadth-first search meets

A node of the pool is met as soon as a node that leads to it is.  So what the search meets is
closed under the edges, and nothing is met that cannot be reached from the queue.

## Key results

- `mem_breadthFirst_of_mem_queue`: the nodes of the queue are met
- `mem_breadthFirst_next`: what a node that is met leads to is met if it is in the pool
- `exists_path_of_mem`: what is met can be reached from the queue through the pool
-/

namespace Swimlane.Search

variable {α : Type} [DecidableEq α]

/-! ## Discovering -/

/-- A node of the pool is discovered or stays in the pool. -/
theorem mem_discover {pool : List α} (ts : List α) {y : α} (hy : y ∈ pool) :
    y ∈ (discover pool ts).1 ∨ y ∈ (discover pool ts).2 := by
  induction ts generalizing pool with
  | nil => exact Or.inr hy
  | cons t ts ih =>
    rw [discover]
    split
    · by_cases hyt : y = t
      · exact Or.inl (hyt ▸ List.mem_cons_self)
      · rcases ih ((List.mem_erase_of_ne hyt).mpr hy) with h | h
        · exact Or.inl (List.mem_cons_of_mem _ h)
        · exact Or.inr h
    · exact ih hy

/-- A node of the pool that is mentioned is discovered. -/
theorem mem_discover_fst {pool ts : List α} {y : α} (hp : y ∈ pool) (ht : y ∈ ts) :
    y ∈ (discover pool ts).1 := by
  induction ts generalizing pool with
  | nil => cases ht
  | cons t ts ih =>
    rw [discover]
    by_cases hyt : y = t
    · subst hyt
      rw [if_pos hp]
      exact List.mem_cons_self
    · have ht' : y ∈ ts := (List.mem_cons.mp ht).resolve_left hyt
      split
      · exact List.mem_cons_of_mem _ (ih ((List.mem_erase_of_ne hyt).mpr hp) ht')
      · exact ih hp ht'

/-- Whatever is discovered or left was in the pool. -/
theorem mem_pool_of_mem_discover {pool ts : List α} {y : α}
    (h : y ∈ (discover pool ts).1 ∨ y ∈ (discover pool ts).2) : y ∈ pool := by
  induction ts generalizing pool with
  | nil => exact h.resolve_left (fun h => nomatch h)
  | cons t ts ih =>
    rw [discover] at h
    by_cases ht : t ∈ pool
    · rw [if_pos ht] at h
      rcases h with h | h
      · rcases List.mem_cons.mp h with rfl | h
        · exact ht
        · exact List.mem_of_mem_erase (ih (Or.inl h))
      · exact List.mem_of_mem_erase (ih (Or.inr h))
    · rw [if_neg ht] at h
      exact ih h

/-- Whatever is discovered was mentioned. -/
theorem mem_of_mem_discover {pool ts : List α} {y : α} (h : y ∈ (discover pool ts).1) : y ∈ ts := by
  induction ts generalizing pool with
  | nil => cases h
  | cons t ts ih =>
    rw [discover] at h
    split at h
    · rcases List.mem_cons.mp h with rfl | h
      · exact List.mem_cons_self
      · exact List.mem_cons_of_mem _ (ih h)
    · exact List.mem_cons_of_mem _ (ih h)

/-! ## Searching -/

/-- The nodes of the queue are met. -/
theorem mem_breadthFirst_of_mem_queue {next : α → List α} {pool : List α}
    {queue : List (α × Nat)} {x : α × Nat} (h : x ∈ queue) :
    x ∈ breadthFirst next pool queue := by
  fun_induction breadthFirst next pool queue with
  | case1 => cases h
  | case2 pool y depth rest r ih =>
    rcases List.mem_cons.mp h with rfl | h
    · exact List.mem_cons_self
    · exact List.mem_cons_of_mem _ (ih (List.mem_append_left _ h))

/-- What is met can be reached from a node of the queue through nodes of the pool. -/
theorem exists_path_of_mem {next : α → List α} {pool : List α} {queue : List (α × Nat)} {y : α}
    (h : y ∈ (breadthFirst next pool queue).map (·.1)) :
    ∃ x ∈ queue.map (·.1), Relation.ReflTransGen (fun a b => b ∈ next a ∧ b ∈ pool) x y := by
  fun_induction breadthFirst next pool queue with
  | case1 => cases h
  | case2 pool z depth rest r ih =>
    rw [List.map_cons, List.mem_cons] at h
    rcases h with rfl | h
    · exact ⟨y, List.mem_cons_self, .refl⟩
    · obtain ⟨x, hx, hpath⟩ := ih h
      -- The smaller pool is a part of the pool, so the path goes through the pool too.
      have hpath : Relation.ReflTransGen (fun a b => b ∈ next a ∧ b ∈ pool) x y :=
        Relation.ReflTransGen.mono
          (fun a b hab => ⟨hab.1, mem_pool_of_mem_discover (Or.inr hab.2)⟩) x y hpath
      rw [List.map_append, List.mem_append, List.map_map] at hx
      rcases hx with hx | hx
      · exact ⟨x, List.mem_cons_of_mem _ hx, hpath⟩
      · -- A node that was discovered just now is reached by one more step.
        have hr : x ∈ r.1 := by simpa [Function.comp_def] using hx
        have hstep : x ∈ next z ∧ x ∈ pool :=
          ⟨mem_of_mem_discover hr, mem_pool_of_mem_discover (Or.inl hr)⟩
        exact ⟨z, List.mem_cons_self, hpath.head hstep⟩

/-- What a node that is met leads to is met too, if it is in the pool. -/
theorem mem_breadthFirst_next {next : α → List α} {pool : List α} {queue : List (α × Nat)}
    {x y : α} (hx : x ∈ (breadthFirst next pool queue).map (·.1)) (hy : y ∈ next x)
    (hp : y ∈ pool) : y ∈ (breadthFirst next pool queue).map (·.1) := by
  fun_induction breadthFirst next pool queue with
  | case1 => cases hx
  | case2 pool z depth rest r ih =>
    -- What is discovered here goes to the queue, so it is met later on.
    have hqueue : y ∈ r.1 →
        y ∈ (breadthFirst next r.2 (rest ++ r.1.map (·, depth + 1))).map (·.1) := by
      intro hr
      have hmem : (y, depth + 1) ∈ rest ++ r.1.map (·, depth + 1) :=
        List.mem_append_right _ (List.mem_map.mpr ⟨y, hr, rfl⟩)
      exact List.mem_map.mpr ⟨_, mem_breadthFirst_of_mem_queue hmem, rfl⟩
    rw [List.map_cons, List.mem_cons] at hx ⊢
    right
    rcases hx with rfl | hx
    · exact hqueue (mem_discover_fst hp hy)
    · rcases mem_discover (next z) hp with hr | hr
      · exact hqueue hr
      · exact ih hx hr

end Swimlane.Search
