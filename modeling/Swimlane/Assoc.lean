/-!
# Association lists

Keyed data that remembers the order of arrival: a new key goes to the end, and a key that is
present keeps its place when its value changes.
-/

namespace Swimlane.Assoc

variable {α β : Type} [BEq α]

/-- The value under a key. -/
def get? (key : α) : List (α × β) → Option β
  | [] => none
  | (k, v) :: rest => if k == key then some v else get? key rest

/-- The list with a value under a key. -/
def put (key : α) (value : β) : List (α × β) → List (α × β)
  | [] => [(key, value)]
  | (k, v) :: rest => if k == key then (k, value) :: rest else (k, v) :: put key value rest

/-- Puts the pairs one after the other; of pairs with one key the last one counts. -/
def ofPairs (pairs : List (α × β)) : List (α × β) :=
  pairs.foldl (fun list (k, v) => put k v list) []

end Swimlane.Assoc
