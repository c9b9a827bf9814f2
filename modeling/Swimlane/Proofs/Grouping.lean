import Mathlib.Data.List.Flatten
import Mathlib.Data.List.Nodup
import Mathlib.Data.List.Perm.Basic

/-!
# Lists grouped by keys

Items with keys are gathered key by key, and what was laid out key by key is found again by its
key.  Both need keys that differ from each other.
-/

namespace List

variable {α β κ : Type} [DecidableEq κ]

/-- Gathering items key by key keeps every item once, if every item has one of the keys. -/
theorem perm_flatMap_filter {keys : List κ} (hn : keys.Nodup) {key : α → κ} {items : List α}
    (h : ∀ x ∈ items, key x ∈ keys) :
    (keys.flatMap fun k => items.filter (key · == k)).Perm items := by
  induction keys generalizing items with
  | nil =>
    have hnil : items = [] := eq_nil_iff_forall_not_mem.mpr fun x hx => nomatch h x hx
    simp [hnil]
  | cons k rest ih =>
    rw [nodup_cons] at hn
    -- The items with another key are gathered under the rest of the keys.
    have hrest : (rest.flatMap fun k' => items.filter (key · == k')) =
        rest.flatMap fun k' => (items.filter fun x => !(key x == k)).filter (key · == k') := by
      refine flatMap_congr fun k' hk' => ?_
      rw [filter_filter]
      refine filter_congr fun x _ => ?_
      by_cases hx : key x = k'
      · have hne : key x ≠ k := fun heq => hn.1 (heq ▸ hx ▸ hk')
        simp [hx, hx ▸ hne]
      · simp [hx]
    have hothers : ∀ x ∈ items.filter fun x => !(key x == k), key x ∈ rest := by
      intro x hx
      rw [mem_filter] at hx
      have hne : key x ≠ k := by simpa using hx.2
      exact (mem_cons.mp (h x hx.1)).resolve_left hne
    rw [flatMap_cons, hrest]
    exact (Perm.append_left _ (ih hn.2 hothers)).trans (filter_append_perm _ _)

/-- What was laid out under a key is found again by the key. -/
theorem filter_flatMap_key {xs : List α} {k : α → κ} (hn : (xs.map k).Nodup) {f : α → List β}
    {key : β → κ} (hf : ∀ x ∈ xs, ∀ y ∈ f x, key y = k x) {x : α} (hx : x ∈ xs) :
    (xs.flatMap f).filter (key · == k x) = f x := by
  induction xs with
  | nil => cases hx
  | cons first rest ih =>
    rw [map_cons, nodup_cons] at hn
    have hrest : ∀ x ∈ rest, ∀ y ∈ f x, key y = k x := fun x hx => hf x (mem_cons_of_mem _ hx)
    rw [flatMap_cons, filter_append]
    rcases mem_cons.mp hx with rfl | hx
    · have hall : (f x).filter (key · == k x) = f x :=
        filter_eq_self.mpr fun y hy => by simp [hf x mem_cons_self y hy]
      have hnone : (rest.flatMap f).filter (key · == k x) = [] := by
        refine filter_eq_nil_iff.mpr fun y hy hkey => ?_
        obtain ⟨z, hz, hy⟩ := mem_flatMap.mp hy
        refine hn.1 (mem_map.mpr ⟨z, hz, ?_⟩)
        rw [← hrest z hz y hy]
        exact beq_iff_eq.mp hkey
      rw [hall, hnone, append_nil]
    · have hnone : (f first).filter (key · == k x) = [] := by
        refine filter_eq_nil_iff.mpr fun y hy hkey => ?_
        have hsame : k first = k x :=
          (hf first mem_cons_self y hy).symm.trans (beq_iff_eq.mp hkey)
        exact hn.1 (mem_map.mpr ⟨x, hx, hsame.symm⟩)
      rw [hnone, nil_append, ih hn.2 hrest hx]

/-- If keys differ from each other, one item has the given key. -/
theorem flatMap_ite_key {xs : List α} {k : α → κ} (hn : (xs.map k).Nodup) {key : κ}
    (hkey : key ∈ xs.map k) (y : β) :
    (xs.flatMap fun x => if key = k x then [y] else []) = [y] := by
  induction xs with
  | nil => cases hkey
  | cons x rest ih =>
    rw [map_cons, nodup_cons] at hn
    rw [flatMap_cons]
    by_cases hx : key = k x
    · have hnone : (rest.flatMap fun z => if key = k z then [y] else []) = [] := by
        rw [flatMap_eq_nil_iff]
        intro z hz
        have hne : key ≠ k z := fun heq => hn.1 (hx ▸ heq ▸ mem_map.mpr ⟨z, hz, rfl⟩)
        simp [hne]
      rw [hnone, if_pos hx, append_nil]
    · have hrest : key ∈ rest.map k := (mem_cons.mp hkey).resolve_left hx
      rw [if_neg hx, nil_append, ih hn.2 hrest]

end List
