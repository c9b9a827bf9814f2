import Swimlane.Proofs.Assoc

/-!
# First occurrences

A list without repetitions that keeps what comes first, and an association list in which of pairs
with one key the first one counts.

## Key results

- `eraseDups_concat`: whether what comes last is a first occurrence
- `eraseDups_filter`, `eraseDups_flatMap_eraseDups`: first occurrences in parts of a list
- `Assoc.get?_ofFirsts`, `Assoc.keys_ofFirsts`: what is stored under which keys
-/

namespace Swimlane

variable {α : Type} [BEq α] [LawfulBEq α]

/-! ## Lists -/

/-- What is left out of a list does not matter to the order of first occurrences in the rest. -/
theorem eraseDups_filter (p : α → Bool) (l : List α) :
    (l.filter p).eraseDups = l.eraseDups.filter p := by
  cases l with
  | nil => rfl
  | cons a rest =>
    have ih := eraseDups_filter p (rest.filter fun b => !b == a)
    rw [List.eraseDups_cons, List.filter_cons, List.filter_cons, ← ih, List.filter_filter]
    by_cases ha : p a = true
    · simp only [ha, if_true, List.eraseDups_cons, List.filter_filter, Bool.and_comm]
    · -- What stays in the list differs from what is left out.
      have hstays : ∀ b ∈ rest, (p b && !b == a) = p b := by
        intro b _
        cases hb : p b with
        | false => rfl
        | true =>
          have hne : b ≠ a := fun heq => ha (heq ▸ hb)
          simp [hne]
      simp only [ha, Bool.false_eq_true, if_false, List.filter_congr hstays]
termination_by l.length
decreasing_by
  have hle := List.length_filter_le (fun b => !b == a) rest
  simp only [List.length_cons]
  omega

/-- First occurrences are without repetition. -/
theorem nodup_eraseDups (l : List α) : l.eraseDups.Nodup := by
  cases l with
  | nil => exact List.nodup_nil
  | cons a rest =>
    rw [List.eraseDups_cons]
    refine List.nodup_cons.mpr ⟨fun hmem => ?_, nodup_eraseDups _⟩
    simpa using List.mem_eraseDups.mp hmem
termination_by l.length
decreasing_by
  have hle := List.length_filter_le (fun b => !b == a) rest
  simp only [List.length_cons]
  omega

/-- Without repetitions all occurrences are first ones. -/
theorem eraseDups_eq_self {l : List α} (h : l.Nodup) : l.eraseDups = l := by
  induction l with
  | nil => rfl
  | cons a rest ih =>
    obtain ⟨hmem, hrest⟩ := List.nodup_cons.mp h
    have hall : rest.filter (fun b => !b == a) = rest := by
      refine List.filter_eq_self.mpr fun b hb => ?_
      have hne : b ≠ a := fun heq => hmem (heq ▸ hb)
      simp [hne]
    rw [List.eraseDups_cons, hall, ih hrest]

/-- First occurrences do not depend on what is repeated in parts of a list. -/
theorem eraseDups_flatMap_eraseDups {ι : Type} (f : ι → List α) (l : List ι) :
    (l.flatMap fun x => (f x).eraseDups).eraseDups = (l.flatMap f).eraseDups := by
  induction l with
  | nil => rfl
  | cons x rest ih =>
    have hsame : ∀ as : List α, as.removeAll (f x).eraseDups = as.removeAll (f x) := by
      intro as
      refine List.filter_congr fun a _ => ?_
      rw [Bool.eq_iff_iff]
      simp
    rw [List.flatMap_cons, List.flatMap_cons, List.eraseDups_append, List.eraseDups_append, hsame,
      eraseDups_eq_self (nodup_eraseDups _)]
    congr 1
    rw [List.removeAll, List.removeAll, eraseDups_filter, eraseDups_filter, ih]

/-- What comes last is a first occurrence if it does not stand before. -/
theorem eraseDups_concat (l : List α) (a : α) :
    (l ++ [a]).eraseDups = if a ∈ l then l.eraseDups else l.eraseDups ++ [a] := by
  rw [List.eraseDups_append, List.removeAll]
  by_cases ha : a ∈ l
  · simp [ha]
  · simp [ha, List.eraseDups_cons]

/-- First occurrences of images do not depend on repetitions. -/
theorem eraseDups_map_eraseDups {β : Type} [BEq β] [LawfulBEq β] (f : α → β)
    (l : List α) :
    (l.eraseDups.map f).eraseDups = (l.map f).eraseDups := by
  -- By induction from the end of the list, where first occurrences are added.
  rw [← List.reverse_reverse l]
  induction l.reverse with
  | nil => rfl
  | cons a rest ih =>
    rw [List.reverse_cons, eraseDups_concat, List.map_append, List.map_cons, List.map_nil,
      eraseDups_concat]
    split
    · rename_i ha
      rw [if_pos (List.mem_map_of_mem ha), ih]
    · have hmem : f a ∈ rest.reverse.eraseDups.map f ↔ f a ∈ rest.reverse.map f := by simp
      rw [List.map_append, List.map_cons, List.map_nil, eraseDups_concat, ih]
      simp only [hmem]

/-! ## Association lists -/

namespace Assoc

variable {β : Type}

/-- Puts pairs one after the other unless their key is there already; of pairs with one key the
    first one counts. -/
def ofFirsts (pairs : List (α × β)) : List (α × β) :=
  pairs.foldl (fun list p => if (get? p.1 list).isSome then list else list ++ [p]) []

/-- Whether something is found under a key. -/
theorem isSome_get?_iff {key : α} {list : List (α × β)} :
    (get? key list).isSome = true ↔ key ∈ list.map (·.1) := by
  constructor
  · intro h
    obtain ⟨value, hvalue⟩ := Option.isSome_iff_exists.mp h
    exact List.mem_map_of_mem (f := (·.1)) (mem_of_get? hvalue)
  · intro h
    obtain ⟨value, hvalue⟩ := exists_get? h
    rw [hvalue]
    rfl

/-- Of pairs with one key the first one counts. -/
theorem get?_ofFirsts (key : α) (pairs : List (α × β)) :
    get? key (ofFirsts pairs) = get? key pairs := by
  -- What is there before is found first.
  have hfold : ∀ list : List (α × β), get? key (pairs.foldl (fun list p =>
      if (get? p.1 list).isSome then list else list ++ [p]) list) =
        (get? key list).or (get? key pairs) := by
    induction pairs with
    | nil => intro list; simp [get?]
    | cons p rest ih =>
      intro list
      rw [List.foldl_cons, ih, get?]
      by_cases hkey : (p.1 == key) = true
      · -- The pair counts if nothing is found under its key before.
        rw [if_pos hkey, eq_of_beq hkey]
        cases hfound : get? key list with
        | none => simp [get?_append, get?, hkey, hfound]
        | some value => simp [hfound]
      · rw [if_neg hkey]
        split
        · rfl
        · simp [get?_append, get?, hkey]
  rw [ofFirsts, hfold]
  rfl

/-- The keys stand in the order of their first occurrences. -/
theorem keys_ofFirsts (pairs : List (α × β)) :
    (ofFirsts pairs).map (·.1) = (pairs.map (·.1)).eraseDups := by
  -- Keys that are there before stay in front, and are not added again.
  have hfold : ∀ list : List (α × β), (pairs.foldl (fun list p =>
      if (get? p.1 list).isSome then list else list ++ [p]) list).map (·.1) =
        list.map (·.1) ++
          ((pairs.map (·.1)).filter fun key => !(list.map (·.1)).contains key).eraseDups := by
    induction pairs with
    | nil => intro list; simp
    | cons p rest ih =>
      intro list
      rw [List.foldl_cons, ih, List.map_cons, List.filter_cons]
      cases hfound : (get? p.1 list).isSome with
      | true =>
        have hmem : (list.map (·.1)).contains p.1 = true :=
          List.contains_iff_mem.mpr (isSome_get?_iff.mp hfound)
        simp only [hmem, if_true, Bool.not_true, Bool.false_eq_true, if_false]
      | false =>
        have hmem : (list.map (·.1)).contains p.1 = false := by
          refine Bool.eq_false_iff.mpr fun hmem => ?_
          rw [isSome_get?_iff.mpr (List.contains_iff_mem.mp hmem)] at hfound
          cases hfound
        simp only [hmem, Bool.false_eq_true, if_false, Bool.not_false, if_true,
          List.eraseDups_cons, List.filter_filter, List.map_append, List.map_cons, List.map_nil,
          List.append_assoc, List.singleton_append]
        congr 3
        refine List.filter_congr fun key _ => ?_
        rw [Bool.eq_iff_iff]
        simp [and_comm]
  have hall : (pairs.map (·.1)).filter
      (fun key => !(([] : List (α × β)).map (·.1)).contains key) = pairs.map (·.1) :=
    List.filter_eq_self.mpr fun _ _ => rfl
  rw [ofFirsts, hfold, hall]
  rfl

end Assoc

end Swimlane
