import Swimlane.Graph.Reach

/-!
# Columns

The column of a state is its distance from the start.  States that cannot be reached share the
column behind the last one.
-/

namespace Swimlane.Diagram

/-- The first number above all of the given ones. -/
def above (ns : List Nat) : Nat := ns.foldl (fun m n => max m (n + 1)) 0

/-- Gives every id that has no column yet the given one. -/
def fillColumns (column : Nat) (columns : List (Json × Nat)) : List Json → List (Json × Nat)
  | [] => columns
  | id :: rest =>
    match Assoc.get? id columns with
    | some _ => fillColumns column columns rest
    | none => fillColumns column (columns ++ [(id, column)]) rest

/-- The columns of the states of a flow, by their ids. -/
def assignColumns (g : Graph) : Except Misfit (List (Json × Nat)) := do
  let met ← g.explore g.start
  let ids := g.nodes.map (·.id)
  if !ids.all Json.isName then throw .notName
  return fillColumns (above (met.map (·.2))) (met.map fun (key, n) => (.str key, n)) ids

end Swimlane.Diagram
