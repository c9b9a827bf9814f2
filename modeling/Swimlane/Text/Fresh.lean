/-!
# Fresh names

A name that is not taken: the wanted one, or the wanted one with the first free number behind
it, counted from two.
-/

namespace Swimlane.Text

/-- The first of `base_n`, `base_(n+1)`, … that is not taken.  A candidate that is taken cannot
    be met again, so it is struck off. -/
def numbered (base : String) (n : Nat) (taken : List String) : String :=
  let candidate := s!"{base}_{n}"
  if candidate ∈ taken then numbered base (n + 1) (taken.erase candidate) else candidate
termination_by taken.length
decreasing_by
  rename_i h
  have := List.length_pos_of_mem h
  rw [List.length_erase_of_mem h]
  omega

/-- The name itself if it is free, else the name with a number. -/
def fresh (base : String) (taken : List String) : String :=
  if base ∈ taken then numbered base 2 taken else base

end Swimlane.Text
