/-!
# Breadth-first search

A search over finitely many nodes.  The nodes that were not met yet are kept in a pool; meeting
a node takes it out of the pool, so pool and queue together shrink with every step.
-/

namespace Swimlane.Search

variable {α : Type} [DecidableEq α]

/-- The nodes of the pool among the given ones, each once and in the order of their first
    mention, and what is left of the pool. -/
def discover (pool : List α) : List α → List α × List α
  | [] => ([], pool)
  | t :: ts =>
    if t ∈ pool then
      let r := discover (pool.erase t) ts
      (t :: r.1, r.2)
    else discover pool ts

theorem length_discover (pool ts : List α) :
    (discover pool ts).1.length + (discover pool ts).2.length = pool.length := by
  induction ts generalizing pool with
  | nil => simp [discover]
  | cons t ts ih =>
    simp only [discover]
    split
    · rename_i h
      have hp := List.length_pos_of_mem h
      have := ih (pool.erase t)
      rw [List.length_erase_of_mem h] at this
      simp only [List.length_cons]
      omega
    · exact ih pool

/-- The nodes of the queue and those of the pool that can be reached from them, in the order in
    which a breadth-first search meets them, each with its distance. -/
def breadthFirst (next : α → List α) (pool : List α) (queue : List (α × Nat)) : List (α × Nat) :=
  match queue with
  | [] => []
  | (x, depth) :: rest =>
    let r := discover pool (next x)
    (x, depth) :: breadthFirst next r.2 (rest ++ r.1.map (·, depth + 1))
termination_by pool.length + queue.length
decreasing_by
  have := length_discover pool (next x)
  simp only [List.length_append, List.length_map, List.length_cons]
  omega

end Swimlane.Search
