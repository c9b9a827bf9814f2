import Swimlane.Json.Basic

/-!
# Looking things up by their keys

Facts about association lists whose keys are compared lawfully.  With keys that differ from each
other, an association list is what it was built from.

## Key results

- `get?_of_mem`: under different keys, every pair is found
- `get?_put`: what is put under a key is found there, and nothing else changes
- `ofPairs_eq_self`: pairs with different keys stay as they are
- `get?_ofPairs`: of pairs with one key the last one counts
- `length_ofPairs_cons`: how many entries there are if a pair stands before pairs with different
  keys
-/

namespace Swimlane.Assoc

variable {α β γ : Type} [BEq α]

/-- What is found is one of the values. -/
theorem mem_values_of_get? {key : α} {value : β} {list : List (α × β)}
    (h : get? key list = some value) : value ∈ list.map (·.2) := by
  induction list with
  | nil => cases h
  | cons p rest ih =>
    rw [get?] at h
    split at h
    · cases h; exact List.mem_cons_self
    · exact List.mem_cons_of_mem _ (ih h)

/-- Putting a value brings no other values. -/
theorem mem_values_put {key : α} {value v : β} {list : List (α × β)}
    (h : v ∈ (put key value list).map (·.2)) : v = value ∨ v ∈ list.map (·.2) := by
  induction list with
  | nil => exact Or.inl (List.mem_singleton.mp h)
  | cons p rest ih =>
    rw [put] at h
    split at h
    · exact (List.mem_cons.mp h).imp_right (List.mem_cons_of_mem _)
    · rcases List.mem_cons.mp h with rfl | h
      · exact Or.inr List.mem_cons_self
      · exact (ih h).imp_right (List.mem_cons_of_mem _)

/-- An association list has no other values than the pairs that it was built from. -/
theorem mem_values_ofPairs {v : β} {pairs : List (α × β)}
    (h : v ∈ (ofPairs pairs).map (·.2)) : v ∈ pairs.map (·.2) := by
  have hfold : ∀ (pairs list : List (α × β)),
      v ∈ (pairs.foldl (fun list p => put p.1 p.2 list) list).map (·.2) →
        v ∈ list.map (·.2) ∨ v ∈ pairs.map (·.2) := by
    intro pairs
    induction pairs with
    | nil => exact fun list h => Or.inl h
    | cons p rest ih =>
      intro list h
      rcases ih _ h with h | h
      · rcases mem_values_put h with rfl | h
        · exact Or.inr List.mem_cons_self
        · exact Or.inl h
      · exact Or.inr (List.mem_cons_of_mem _ h)
  exact (hfold pairs [] h).resolve_left List.not_mem_nil

/-- Looking up a value and then changing it is looking it up among changed values. -/
theorem get?_map (f : β → γ) (key : α) (list : List (α × β)) :
    get? key (list.map fun p => (p.1, f p.2)) = (get? key list).map f := by
  induction list with
  | nil => rfl
  | cons p rest ih =>
    obtain ⟨k, v⟩ := p
    rw [List.map_cons, get?, get?, ih]
    split <;> rfl

/-- Values can be changed before they are stored. -/
theorem ofPairs_map (f : β → γ) (pairs : List (α × β)) :
    ofPairs (pairs.map fun p => (p.1, f p.2)) = (ofPairs pairs).map fun p => (p.1, f p.2) := by
  have hput : ∀ (key : α) (value : β) (list : List (α × β)),
      put key (f value) (list.map fun p => (p.1, f p.2)) =
        (put key value list).map fun p => (p.1, f p.2) := by
    intro key value list
    induction list with
    | nil => rfl
    | cons p rest ih =>
      obtain ⟨k, v⟩ := p
      rw [List.map_cons, put, put, ih]
      split <;> rfl
  have hfold : ∀ (pairs list : List (α × β)),
      (pairs.map fun p => (p.1, f p.2)).foldl (fun list p => put p.1 p.2 list)
          (list.map fun p => (p.1, f p.2)) =
        (pairs.foldl (fun list p => put p.1 p.2 list) list).map fun p => (p.1, f p.2) := by
    intro pairs
    induction pairs with
    | nil => exact fun _ => rfl
    | cons p rest ih =>
      intro list
      show (rest.map _).foldl _ (put p.1 (f p.2) _) = _
      rw [hput, ih]
      rfl
  exact hfold pairs []

/-- What is looked up in two lists is looked up in the first one first. -/
theorem get?_append (key : α) (xs ys : List (α × β)) :
    get? key (xs ++ ys) = (get? key xs).or (get? key ys) := by
  induction xs with
  | nil => rfl
  | cons p rest ih =>
    obtain ⟨k, v⟩ := p
    rw [List.cons_append, get?, get?, ih]
    split <;> rfl

variable [LawfulBEq α]

/-- What is found under a key is a pair of the list. -/
theorem mem_of_get? {key : α} {value : β} {list : List (α × β)} (h : get? key list = some value) :
    (key, value) ∈ list := by
  induction list with
  | nil => cases h
  | cons p rest ih =>
    obtain ⟨k, v⟩ := p
    rw [get?] at h
    split at h
    · rename_i hk
      cases h
      rw [eq_of_beq hk]
      exact List.mem_cons_self
    · exact List.mem_cons_of_mem _ (ih h)

/-- Under a key of the list something is found. -/
theorem exists_get? {key : α} {list : List (α × β)} (h : key ∈ list.map (·.1)) :
    ∃ value, get? key list = some value := by
  induction list with
  | nil => cases h
  | cons p rest ih =>
    obtain ⟨k, v⟩ := p
    rw [get?]
    by_cases hk : (k == key) = true
    · exact ⟨v, if_pos hk⟩
    · rw [if_neg hk]
      have hne : key ≠ k := fun he => hk (by rw [he]; exact BEq.rfl)
      exact ih ((List.mem_cons.mp h).resolve_left hne)

/-- Under a key that the list does not have nothing is found. -/
theorem get?_eq_none {key : α} {list : List (α × β)} (h : key ∉ list.map (·.1)) :
    get? key list = none := by
  cases hg : get? key list with
  | none => rfl
  | some value => exact absurd (List.mem_map.mpr ⟨_, mem_of_get? hg, rfl⟩) h

/-- If the keys differ from each other, every pair is found under its key. -/
theorem get?_of_mem {key : α} {value : β} {list : List (α × β)} (hn : (list.map (·.1)).Nodup)
    (h : (key, value) ∈ list) : get? key list = some value := by
  induction list with
  | nil => cases h
  | cons p rest ih =>
    obtain ⟨k, v⟩ := p
    rw [List.map_cons, List.nodup_cons] at hn
    rw [get?]
    rcases List.mem_cons.mp h with heq | h
    · cases heq
      rw [if_pos BEq.rfl]
    · have hne : (k == key) = false := by
        rw [beq_eq_false_iff_ne]
        rintro rfl
        exact hn.1 (List.mem_map.mpr ⟨_, h, rfl⟩)
      rw [hne]
      exact ih hn.2 h

/-- A new key goes to the end. -/
theorem put_of_not_mem {key : α} (value : β) {list : List (α × β)} (h : key ∉ list.map (·.1)) :
    put key value list = list ++ [(key, value)] := by
  induction list with
  | nil => rfl
  | cons p rest ih =>
    obtain ⟨k, v⟩ := p
    rw [List.map_cons, List.mem_cons, not_or] at h
    have hne : (k == key) = false := beq_eq_false_iff_ne.mpr (Ne.symm h.1)
    rw [put, hne]
    exact congrArg ((k, v) :: ·) (ih h.2)

/-- Putting a value changes what is found under its key, and nothing else. -/
theorem get?_put (key key' : α) (value : β) (list : List (α × β)) :
    get? key' (put key value list) = if key == key' then some value else get? key' list := by
  induction list with
  | nil => rfl
  | cons p rest ih =>
    obtain ⟨k, v⟩ := p
    rw [put]
    by_cases hk : (k == key) = true
    · rw [if_pos hk, get?, get?, eq_of_beq hk]
      by_cases hkey : (key == key') = true
      · rw [if_pos hkey, if_pos hkey]
      · rw [if_neg hkey, if_neg hkey, if_neg hkey]
    · rw [if_neg hk, get?, get?, ih]
      by_cases hk' : (k == key') = true
      · have hne : (key == key') = false := by
          rw [beq_eq_false_iff_ne]
          rintro rfl
          exact hk hk'
        rw [if_pos hk', hne, if_pos hk']
        rfl
      · rw [if_neg hk', if_neg hk']

/-- Whether a key has some property, after a value was put under a key. -/
theorem any_put (p : α → Bool) (key : α) (value : β) (list : List (α × β)) :
    (put key value list).any (fun e => p e.1) = (list.any (fun e => p e.1) || p key) := by
  induction list with
  | nil => simp [put]
  | cons e rest ih =>
    obtain ⟨k, v⟩ := e
    rw [put]
    split
    · rename_i hk
      rw [eq_of_beq hk, List.any_cons, List.any_cons]
      cases p key <;> simp
    · rw [List.any_cons, List.any_cons, ih, Bool.or_assoc]

/-- Pairs with different keys, none of which is there yet, are put to the end. -/
theorem foldl_put {pairs list : List (α × β)} (hn : ((list ++ pairs).map (·.1)).Nodup) :
    pairs.foldl (fun list (k, v) => put k v list) list = list ++ pairs := by
  induction pairs generalizing list with
  | nil => exact (List.append_nil list).symm
  | cons p rest ih =>
    obtain ⟨k, v⟩ := p
    have hk : k ∉ list.map (·.1) := by
      rw [List.map_append, List.map_cons] at hn
      exact fun hmem => (List.nodup_append.mp hn).2.2 k hmem k List.mem_cons_self rfl
    show rest.foldl _ (put k v list) = _
    rw [put_of_not_mem v hk, ih (by rw [List.append_assoc]; exact hn), List.append_assoc,
      List.singleton_append]

/-- Pairs with different keys stay as they are. -/
theorem ofPairs_eq_self {pairs : List (α × β)} (hn : (pairs.map (·.1)).Nodup) :
    ofPairs pairs = pairs :=
  foldl_put hn

/-- Of pairs with one key the last one counts. -/
theorem get?_ofPairs (key : α) (pairs : List (α × β)) :
    get? key (ofPairs pairs) = get? key pairs.reverse := by
  -- What is there before is found only if no pair has the key.
  have hfold : ∀ list : List (α × β), get? key (pairs.foldl (fun list (k, v) => put k v list) list) =
      (get? key pairs.reverse).or (get? key list) := by
    induction pairs with
    | nil => exact fun _ => rfl
    | cons p rest ih =>
      intro list
      obtain ⟨k, v⟩ := p
      rw [List.foldl_cons, ih, get?_put, List.reverse_cons, get?_append, Option.or_assoc, get?]
      by_cases hk : (k == key) = true
      · simp [hk]
      · simp [hk, get?]
  rw [ofPairs, hfold []]
  exact Option.or_none

/-- Every key of some pairs is found with the value of one of them. -/
theorem exists_get?_ofPairs {key : α} {pairs : List (α × β)} (h : key ∈ pairs.map (·.1)) :
    ∃ value, get? key (ofPairs pairs) = some value ∧ (key, value) ∈ pairs := by
  have hkey : key ∈ pairs.reverse.map (·.1) := by simpa using h
  obtain ⟨value, hvalue⟩ := exists_get? hkey
  exact ⟨value, (get?_ofPairs key pairs).trans hvalue, List.mem_reverse.mp (mem_of_get? hvalue)⟩

/-- Putting a value under a key that is there keeps the keys. -/
theorem keys_put_of_mem {key : α} (value : β) {list : List (α × β)} (h : key ∈ list.map (·.1)) :
    (put key value list).map (·.1) = list.map (·.1) := by
  induction list with
  | nil => cases h
  | cons p rest ih =>
    obtain ⟨k, v⟩ := p
    rw [put]
    by_cases hk : (k == key) = true
    · rw [if_pos hk, List.map_cons, List.map_cons, eq_of_beq hk]
    · have hne : key ≠ k := fun he => hk (by rw [he]; exact BEq.rfl)
      rw [if_neg hk, List.map_cons, List.map_cons, ih ((List.mem_cons.mp h).resolve_left hne)]

/-- Pairs are put together to an association list with different keys: those that were there, and
    those of the pairs. -/
theorem keys_foldl_put (pairs : List (α × β)) {list : List (α × β)}
    (hn : (list.map (·.1)).Nodup) :
    ((pairs.foldl (fun list (k, v) => put k v list) list).map (·.1)).Nodup ∧
    ∀ key, key ∈ (pairs.foldl (fun list (k, v) => put k v list) list).map (·.1) ↔
      key ∈ list.map (·.1) ∨ key ∈ pairs.map (·.1) := by
  induction pairs generalizing list with
  | nil => exact ⟨hn, fun key => by simp⟩
  | cons p rest ih =>
    obtain ⟨k, v⟩ := p
    show (List.map _ (rest.foldl _ (put k v list))).Nodup ∧ ∀ key, key ∈ List.map _ (rest.foldl _
      (put k v list)) ↔ _
    by_cases hk : k ∈ list.map (·.1)
    · have hkeys := keys_put_of_mem v hk
      have hput : ((put k v list).map (·.1)).Nodup := by rw [hkeys]; exact hn
      obtain ⟨hnodup, hmem⟩ := ih hput
      refine ⟨hnodup, fun key => (hmem key).trans ?_⟩
      rw [hkeys, List.map_cons, List.mem_cons]
      constructor
      · exact Or.imp_right Or.inr
      · rintro (h | rfl | h)
        · exact Or.inl h
        · exact Or.inl hk
        · exact Or.inr h
    · rw [put_of_not_mem v hk]
      have hmore : ((list ++ [(k, v)]).map (·.1)).Nodup := by
        rw [List.map_append, List.nodup_append]
        refine ⟨hn, by simp, fun x hx y hy heq => ?_⟩
        rw [heq, List.mem_singleton.mp hy] at hx
        exact hk hx
      obtain ⟨hnodup, hmem⟩ := ih hmore
      refine ⟨hnodup, fun key => (hmem key).trans ?_⟩
      simp only [List.map_append, List.map_cons, List.map_nil, List.mem_append, List.mem_cons,
        List.not_mem_nil, or_false, or_assoc]

/-- A pair before pairs with different keys is an entry more, unless one of them has its key. -/
theorem length_ofPairs_cons (k : α) (v : β) {rest : List (α × β)}
    (hn : (rest.map (·.1)).Nodup) :
    (k ∉ rest.map (·.1) → (ofPairs ((k, v) :: rest)).length = rest.length + 1) ∧
    (k ∈ rest.map (·.1) → (ofPairs ((k, v) :: rest)).length = rest.length) := by
  constructor
  · intro hk
    have hkeys : (((k, v) :: rest).map (·.1)).Nodup := List.nodup_cons.mpr ⟨hk, hn⟩
    rw [ofPairs_eq_self hkeys, List.length_cons]
  · intro hk
    have hempty : (([] : List (α × β)).map (·.1)).Nodup := List.nodup_nil
    obtain ⟨hnodup, hmem⟩ := keys_foldl_put ((k, v) :: rest) hempty
    -- Both sides have the same keys, and each of them once.
    have hperm : ((ofPairs ((k, v) :: rest)).map (·.1)).Perm (rest.map (·.1)) := by
      refine (List.perm_ext_iff_of_nodup hnodup hn).mpr fun key => (hmem key).trans ?_
      rw [List.map_nil, List.map_cons, List.mem_cons]
      constructor
      · rintro (h | rfl | h)
        · cases h
        · exact hk
        · exact h
      · exact fun h => Or.inr (Or.inr h)
    have hlength := hperm.length_eq
    rwa [List.length_map, List.length_map] at hlength

/-- Among pairs with different keys each is found, whatever stands before them. -/
theorem get?_ofPairs_cons {k key : α} (v : β) {value : β} {rest : List (α × β)}
    (hn : (rest.map (·.1)).Nodup) (h : (key, value) ∈ rest) :
    get? key (ofPairs ((k, v) :: rest)) = some value := by
  have hrest : get? key rest.reverse = some value := by
    refine get?_of_mem ?_ (List.mem_reverse.mpr h)
    rw [List.map_reverse]
    exact (List.reverse_perm _).nodup_iff.mpr hn
  rw [get?_ofPairs, List.reverse_cons, get?_append, hrest, Option.some_or]

/-! ## Texts as keys -/

/-- Texts are the same name only if they are equal. -/
theorem str_beq_str (s t : String) : (Json.str s == Json.str t) = (s == t) := rfl

/-- Among texts a text is found like a string among strings. -/
theorem get?_str (key : String) (list : List (String × β)) :
    get? (Json.str key) (list.map fun p => (Json.str p.1, p.2)) = get? key list := by
  induction list with
  | nil => rfl
  | cons p rest ih =>
    obtain ⟨k, v⟩ := p
    rw [List.map_cons, get?, get?, str_beq_str, ih]

/-- Only a text is the same name as a text. -/
theorem eq_of_str_beq {s : String} {v : Json} (h : (Json.str s == v) = true) : v = .str s := by
  cases v with
  | str t =>
    rw [str_beq_str] at h
    rw [eq_of_beq h]
  | float x =>
    -- A number may count as an integer, and a text never does.
    change Json.sameName (.str s) (.float x) = true at h
    simp only [Json.sameName, Json.asInt?] at h
    split at h <;> simp_all
  | null | bool | int | arr | obj => cases h

/-- What is found among texts is a pair of the list. -/
theorem mem_of_get?_str {v : Json} {value : β} {list : List (String × β)}
    (h : get? v (list.map fun p => (Json.str p.1, p.2)) = some value) :
    ∃ key, v = .str key ∧ (key, value) ∈ list := by
  induction list with
  | nil => cases h
  | cons p rest ih =>
    rw [List.map_cons, get?] at h
    split at h
    · rename_i hkey
      cases h
      exact ⟨p.1, eq_of_str_beq hkey, List.mem_cons_self⟩
    · obtain ⟨key, hv, hmem⟩ := ih h
      exact ⟨key, hv, List.mem_cons_of_mem _ hmem⟩

/-- Among texts a text is put like a string among strings. -/
theorem put_str (key : String) (value : β) (list : List (String × β)) :
    put (Json.str key) value (list.map fun p => (Json.str p.1, p.2)) =
      (put key value list).map fun p => (Json.str p.1, p.2) := by
  induction list with
  | nil => rfl
  | cons p rest ih =>
    obtain ⟨k, v⟩ := p
    rw [List.map_cons, put, put, str_beq_str, ih]
    split <;> rfl

/-- Pairs with texts for keys are put together like pairs with strings. -/
theorem ofPairs_map_str (pairs : List (String × β)) :
    ofPairs (pairs.map fun p => (Json.str p.1, p.2)) =
      (ofPairs pairs).map fun p => (Json.str p.1, p.2) := by
  have hfold : ∀ (pairs list : List (String × β)),
      (pairs.map fun p => (Json.str p.1, p.2)).foldl (fun list (k, v) => put k v list)
        (list.map fun p => (Json.str p.1, p.2)) =
      (pairs.foldl (fun list (k, v) => put k v list) list).map fun p => (Json.str p.1, p.2) := by
    intro pairs
    induction pairs with
    | nil => exact fun _ => rfl
    | cons p rest ih =>
      intro list
      show (rest.map _).foldl _ (put (Json.str p.1) p.2 _) = _
      rw [put_str, ih]
      rfl
  exact hfold pairs []

/-- Pairs with different texts for keys stay as they are. -/
theorem ofPairs_str {pairs : List (String × β)} (hn : (pairs.map (·.1)).Nodup) :
    ofPairs (pairs.map fun p => (Json.str p.1, p.2)) = pairs.map fun p => (Json.str p.1, p.2) := by
  rw [ofPairs_map_str, ofPairs_eq_self hn]

end Swimlane.Assoc
