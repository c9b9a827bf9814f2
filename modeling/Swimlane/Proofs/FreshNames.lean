import Swimlane.Text.Fresh

/-!
# Fresh names are free

`Text.fresh` gives the wanted name, or the wanted name with a number behind it, and what it gives
is never taken.  Striking a candidate off the list of taken names is harmless because numbers
grow: a later candidate is another text.

## Key results

- `isFirstFree_fresh`: a fresh name is the first free one of its candidates
- `fresh_not_mem`: a fresh name is not among the taken ones
- `fresh_eq`: a fresh name is the wanted one, or the wanted one with a number
-/

namespace Swimlane.Text

/-- Numbered names tell their numbers apart. -/
theorem numberedName_inj (base : String) (m n : Nat)
    (h : s!"{base}_{m}" = s!"{base}_{n}") : m = n := by
  have hl := congrArg String.toList h
  simp only [toString, String.toList_append, List.append_assoc, List.append_cancel_left_eq,
    Nat.toList_repr] at hl
  rw [← Nat.ofDigitChars_ten_toDigits (n := m), hl, Nat.ofDigitChars_ten_toDigits]

/-- The search for a free number ends at the first number, from the given one on, whose name is
    free. -/
theorem numbered_spec (base : String) (n : Nat) (taken : List String) :
    ∃ m, n ≤ m ∧ numbered base n taken = s!"{base}_{m}" ∧ s!"{base}_{m}" ∉ taken ∧
      ∀ k, n ≤ k → k < m → s!"{base}_{k}" ∈ taken := by
  fun_induction numbered base n taken with
  | case1 n taken candidate hmem ih =>
    obtain ⟨m, hle, heq, hfree, htaken⟩ := ih
    refine ⟨m, by omega, heq, fun hm => hfree ?_, fun k hk hkm => ?_⟩
    · -- The candidate that was struck off has a smaller number.
      have hne : s!"{base}_{m}" ≠ candidate := by
        intro he
        have := numberedName_inj base m n he
        omega
      exact (List.mem_erase_of_ne hne).mpr hm
    · rcases Nat.eq_or_lt_of_le hk with rfl | hlt
      · exact hmem
      · exact List.mem_of_mem_erase (htaken k hlt hkm)
  | case2 n taken candidate hfree =>
    exact ⟨n, Nat.le_refl n, rfl, hfree, fun k hk hkn => by omega⟩

/-- The names to try for a wanted one, in order: the name itself, then the name with the numbers
    from two on. -/
def candidate (base : String) : Nat → String
  | 0 => base
  | n + 1 => s!"{base}_{n + 2}"

/-- A name is the first of the candidates that is not taken. -/
def IsFirstFree (base : String) (taken : List String) (name : String) : Prop :=
  name ∉ taken ∧ ∃ n, name = candidate base n ∧ ∀ m < n, candidate base m ∈ taken

/-- A fresh name is the first candidate that is free. -/
theorem isFirstFree_fresh (base : String) (taken : List String) :
    IsFirstFree base taken (fresh base taken) := by
  unfold fresh
  split
  · rename_i hbase
    obtain ⟨m, hle, heq, hfree, htaken⟩ := numbered_spec base 2 taken
    obtain ⟨n, rfl⟩ := Nat.exists_eq_add_of_le' hle
    rw [heq]
    refine ⟨hfree, n + 1, rfl, fun k hk => ?_⟩
    cases k with
    | zero => exact hbase
    | succ k => exact htaken (k + 2) (by omega) (by omega)
  · rename_i hfree
    exact ⟨hfree, 0, rfl, fun k hk => absurd hk (Nat.not_lt_zero k)⟩

/-- A fresh name is not taken. -/
theorem fresh_not_mem (base : String) (taken : List String) : fresh base taken ∉ taken :=
  (isFirstFree_fresh base taken).1

/-- A fresh name is the wanted one, or the wanted one with a number behind it. -/
theorem fresh_eq (base : String) (taken : List String) :
    fresh base taken = base ∨ ∃ m : Nat, fresh base taken = s!"{base}_{m}" := by
  obtain ⟨_, n, heq, _⟩ := isFirstFree_fresh base taken
  cases n with
  | zero => exact Or.inl heq
  | succ n => exact Or.inr ⟨n + 2, heq⟩

end Swimlane.Text
