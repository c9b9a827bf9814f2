import Mathlib
import Swimlane.Placeholder
import Swimlane.Proofs.Firsts
import Swimlane.Proofs.Labels

/-!
# Placeholders in a text

A placeholder is written as an opening brace, white space, a name, white space and a closing brace.
There is no brace inside, so placeholders do not overlap, and a reader that goes on behind each
placeholder misses none of them.

## Key results

- `front?_eq_some_iff`: what a placeholder at the front of a text is
- `names_eq_occurrences`: the variables of a text are the names of all its placeholders
- `mem_names_iff`, `nodup_names`, `pairwise_names`: every such name once, in the order of the text
-/

namespace Swimlane

/-! ## Characters -/

namespace Text

/-- No white space is among the letters and numbers beyond ASCII. -/
theorem wordRanges_blank : (blankRanges.all fun blank => wordRanges.all fun range =>
    Nat.blt blank.2 range.1 || Nat.blt range.2 blank.1) = true := by
  decide +kernel

/-- White space is no part of a word. -/
theorem isWordChar_of_isBlank {c : Char} (h : isBlank c = true) : isWordChar c = false := by
  obtain ⟨blank, hblank, hlow, hhigh⟩ := exists_of_inRanges h
  have hranges : inRanges c.toNat wordRanges = false := by
    refine Bool.eq_false_iff.mpr fun hin => ?_
    obtain ⟨range, hrange, hlow', hhigh'⟩ := exists_of_inRanges hin
    have hapart := List.all_eq_true.mp (List.all_eq_true.mp wordRanges_blank blank hblank) range
      hrange
    simp only [Bool.or_eq_true, Nat.blt_eq] at hapart
    omega
  have halpha : c.isAlphanum = false := by
    refine Bool.eq_false_iff.mpr fun halpha => ?_
    have hnot := isSeparator_of_isAlphanum halpha
    simp [isSeparator, h] at hnot
  have hline : c ≠ '_' := fun heq => by rw [heq] at h; exact absurd h (by decide)
  simp [isWordChar, halpha, hline, hranges]

end Text

namespace Placeholder

theorem isNameChar_of_isBlank {c : Char} (h : Text.isBlank c = true) : isNameChar c = false := by
  have hdot : c ≠ '.' := fun heq => by rw [heq] at h; exact absurd h (by decide)
  have hdash : c ≠ '-' := fun heq => by rw [heq] at h; exact absurd h (by decide)
  simp [isNameChar, Text.isWordChar_of_isBlank h, hdot, hdash]

theorem isNameChar_of_isNameStart {c : Char} (h : isNameStart c = true) : isNameChar c = true := by
  simp only [isNameStart, Bool.or_eq_true] at h
  simp only [isNameChar, Text.isWordChar, Char.isAlphanum, Bool.or_eq_true]
  tauto

/-! ## Names -/

/-- A name of a variable: a letter or an underscore, then word characters, dots and dashes. -/
def IsName : List Char → Prop
  | [] => False
  | c :: cs => isNameStart c = true ∧ ∀ d ∈ cs, isNameChar d = true

theorem IsName.isNameChar {name : List Char} (h : IsName name) :
    ∀ c ∈ name, isNameChar c = true := by
  cases name with
  | nil => exact h.elim
  | cons c cs => exact List.forall_mem_cons.mpr ⟨isNameChar_of_isNameStart h.1, h.2⟩

/-- What a placeholder with the given name is written as. -/
def Spells (name written : List Char) : Prop :=
  IsName name ∧ ∃ before after, (∀ c ∈ before, Text.isBlank c = true) ∧
    (∀ c ∈ after, Text.isBlank c = true) ∧
    written = '{' :: (before ++ (name ++ (after ++ ['}'])))

/-- Where the reading of names stops. -/
theorem takeWhile_isNameChar {cs after : List Char} (hcs : ∀ c ∈ cs, isNameChar c = true)
    (hafter : ∀ c ∈ after, Text.isBlank c = true) (rest : List Char) :
    (cs ++ (after ++ '}' :: rest)).takeWhile isNameChar = cs ∧
      (cs ++ (after ++ '}' :: rest)).dropWhile isNameChar = after ++ '}' :: rest := by
  have hclosing : isNameChar '}' = false := by decide
  rw [List.takeWhile_append_of_pos hcs, List.dropWhile_append_of_pos hcs]
  cases after with
  | nil => simp [hclosing]
  | cons c after =>
    have hc := isNameChar_of_isBlank (hafter c List.mem_cons_self)
    simp [hc]

/-- The reader finds a name between white space, behind which the brace is closed. -/
theorem inner?_eq_some_iff {cs name rest : List Char} : inner? cs = some (name, rest) ↔
    IsName name ∧ ∃ before after, (∀ c ∈ before, Text.isBlank c = true) ∧
      (∀ c ∈ after, Text.isBlank c = true) ∧
      cs = before ++ (name ++ (after ++ '}' :: rest)) := by
  constructor
  · intro h
    simp only [inner?, Option.bind_eq_bind, Option.bind_eq_some_iff, Prod.exists] at h
    obtain ⟨found, behind, hname, hclosed⟩ := h
    have hcs := List.takeWhile_append_dropWhile (p := Text.isBlank) (l := cs)
    have hbehind := List.takeWhile_append_dropWhile (p := Text.isBlank) (l := behind)
    rw [Text.dropBlank] at hname hclosed
    cases hfront : cs.dropWhile Text.isBlank with
    | nil => rw [hfront] at hname; cases hname
    | cons c tail =>
      rw [hfront, name?] at hname
      by_cases hc : isNameStart c = true
      · rw [if_pos hc] at hname
        cases hname
        split at hclosed
        · rename_i more hmore
          cases hclosed
          rw [hmore] at hbehind
          refine ⟨⟨hc, fun d hd => List.mem_takeWhile_imp hd⟩, cs.takeWhile Text.isBlank,
            (tail.dropWhile isNameChar).takeWhile Text.isBlank,
            fun d hd => List.mem_takeWhile_imp hd, fun d hd => List.mem_takeWhile_imp hd, ?_⟩
          rw [hbehind, List.cons_append, List.takeWhile_append_dropWhile, ← hfront, hcs]
        · cases hclosed
      · rw [if_neg hc] at hname
        cases hname
  · rintro ⟨hname, before, after, hbefore, hafter, rfl⟩
    cases name with
    | nil => exact hname.elim
    | cons c tail =>
      obtain ⟨hc, htail⟩ := hname
      have hstart : Text.isBlank c = false := by
        refine Bool.eq_false_iff.mpr fun hblank => ?_
        have hnot := isNameChar_of_isBlank hblank
        rw [isNameChar_of_isNameStart hc] at hnot
        cases hnot
      have hclosing : Text.isBlank '}' = false := by decide
      -- Reading is greedy, but neither white space nor the brace belongs to the name.
      obtain ⟨htake, hdrop⟩ := takeWhile_isNameChar htail hafter rest
      have hfront : Text.dropBlank (before ++ (c :: tail ++ (after ++ '}' :: rest))) =
          c :: (tail ++ (after ++ '}' :: rest)) := by
        rw [Text.dropBlank, List.dropWhile_append_of_pos hbefore, List.cons_append,
          List.dropWhile_cons_of_neg (by simp [hstart])]
      have hbehind : Text.dropBlank (after ++ '}' :: rest) = '}' :: rest := by
        rw [Text.dropBlank, List.dropWhile_append_of_pos hafter,
          List.dropWhile_cons_of_neg (by simp [hclosing])]
      simp only [inner?, hfront, name?, hc, if_true, htake, hdrop, hbehind, Option.bind_eq_bind,
        Option.bind_some]

/-! ## Occurrences -/

/-- The name of the placeholder at the front of a text, and what follows it. -/
def front? : List Char → Option (List Char × List Char)
  | [] => none
  | c :: cs => if c = '{' then inner? cs else none

/-- A placeholder is found at the front of a text if one is written there. -/
theorem front?_eq_some_iff {cs name rest : List Char} :
    front? cs = some (name, rest) ↔ ∃ written, Spells name written ∧ cs = written ++ rest := by
  constructor
  · intro h
    cases cs with
    | nil => cases h
    | cons c cs =>
      rw [front?] at h
      split at h
      · rename_i hc
        obtain ⟨hname, before, after, hbefore, hafter, rfl⟩ := inner?_eq_some_iff.mp h
        refine ⟨_, ⟨hname, before, after, hbefore, hafter, rfl⟩, ?_⟩
        simp [hc]
      · cases h
  · rintro ⟨written, ⟨hname, before, after, hbefore, hafter, rfl⟩, rfl⟩
    rw [List.cons_append, front?, if_pos rfl]
    exact inner?_eq_some_iff.mpr ⟨hname, before, after, hbefore, hafter, by simp⟩

/-- There are no braces inside of a placeholder, and no marks that end clauses. -/
theorem Spells.inside {name written : List Char} (h : Spells name written) :
    ∃ before after, (∀ c ∈ before, Text.isBlank c = true) ∧
      (∀ c ∈ after, Text.isBlank c = true) ∧
      written = '{' :: ((before ++ (name ++ after)) ++ ['}']) ∧
      ∀ c ∈ before ++ (name ++ after), c ≠ '{' ∧ c ≠ '}' ∧ c ≠ ',' ∧ c ≠ ';' := by
  obtain ⟨hname, before, after, hbefore, hafter, rfl⟩ := h
  have hblank : ∀ c, Text.isBlank c = true → c ≠ '{' ∧ c ≠ '}' ∧ c ≠ ',' ∧ c ≠ ';' := by
    intro c hc
    refine ⟨?_, ?_, ?_, ?_⟩ <;> rintro rfl <;> exact absurd hc (by decide)
  have hchar : ∀ c, isNameChar c = true → c ≠ '{' ∧ c ≠ '}' ∧ c ≠ ',' ∧ c ≠ ';' := by
    intro c hc
    refine ⟨?_, ?_, ?_, ?_⟩ <;> rintro rfl <;> exact absurd hc (by decide)
  refine ⟨before, after, hbefore, hafter, by simp, fun c hc => ?_⟩
  rcases List.mem_append.mp hc with hc | hc
  · exact hblank c (hbefore c hc)
  · rcases List.mem_append.mp hc with hc | hc
    · exact hchar c (hname.isNameChar c hc)
    · exact hblank c (hafter c hc)

/-- Without a closing brace there is no placeholder. -/
theorem front?_eq_none {cs : List Char} (h : '}' ∉ cs) : front? cs = none := by
  cases hfront : front? cs with
  | none => rfl
  | some found =>
    obtain ⟨written, hwritten, rfl⟩ := front?_eq_some_iff.mp hfront
    obtain ⟨before, after, _, _, rfl, _⟩ := hwritten.inside
    simp at h

/-- The names of all placeholders of a text, in the order in which they begin. -/
def occurrences : List Char → List String
  | [] => []
  | c :: cs => ((front? (c :: cs)).map fun found => String.ofList found.1).toList ++ occurrences cs

/-- Text without opening braces has no placeholders. -/
theorem occurrences_append {front : List Char} (h : ∀ c ∈ front, c ≠ '{') (cs : List Char) :
    occurrences (front ++ cs) = occurrences cs := by
  induction front with
  | nil => rfl
  | cons c front ih =>
    obtain ⟨hc, hfront⟩ := List.forall_mem_cons.mp h
    rw [List.cons_append, occurrences, front?, if_neg hc, ih hfront]
    rfl

/-- Placeholders do not overlap: the next one begins behind the one at the front. -/
theorem occurrences_of_front? {cs name rest : List Char} (h : front? cs = some (name, rest)) :
    occurrences cs = String.ofList name :: occurrences rest := by
  obtain ⟨written, hwritten, rfl⟩ := front?_eq_some_iff.mp h
  obtain ⟨before, after, _, _, rfl, hinside⟩ := hwritten.inside
  have hclosed : ∀ c ∈ (before ++ (name ++ after)) ++ ['}'], c ≠ '{' := by
    intro c hc
    rcases List.mem_append.mp hc with hc | hc
    · exact (hinside c hc).1
    · rw [List.mem_singleton.mp hc]
      decide
  rw [List.cons_append] at h ⊢
  rw [occurrences, h, occurrences_append hclosed]
  rfl

/-- A text that does not begin with a placeholder. -/
theorem occurrences_of_front?_eq_none {c : Char} {cs : List Char} (h : front? (c :: cs) = none) :
    occurrences (c :: cs) = occurrences cs := by
  rw [occurrences, h]
  rfl

/-- A reader that goes on behind each placeholder misses none. -/
theorem filterMap_parts (cs : List Char) :
    (parts cs).filterMap Part.name? = occurrences cs := by
  fun_induction parts cs with
  | case1 => rfl
  | case2 cs name rest h _ ih =>
    have hfront : front? ('{' :: cs) = some (name, rest) := by rw [front?, if_pos rfl, h]
    rw [occurrences_of_front? hfront, ← ih]
    rfl
  | case3 cs h ih =>
    have hfront : front? ('{' :: cs) = none := by rw [front?, if_pos rfl, h]
    rw [occurrences_of_front?_eq_none hfront, ← ih]
    rfl
  | case4 c cs h ih =>
    have hfront : front? (c :: cs) = none := by rw [front?, if_neg h]
    rw [occurrences_of_front?_eq_none hfront, ← ih]
    rfl

/-- The variables of a text are the names of its placeholders, each of them once. -/
theorem names_eq_occurrences (s : String) : names s = (occurrences s.toList).eraseDups := by
  rw [names, filterMap_parts]

/-! ## Positions -/

/-- A placeholder with the given name is written at a position of a text. -/
def At (cs : List Char) (i : Nat) (name : String) : Prop :=
  ∃ written rest, Spells name.toList written ∧ cs.drop i = written ++ rest

theorem at_zero_iff {cs : List Char} {name : String} :
    At cs 0 name ↔ ∃ rest, front? cs = some (name.toList, rest) := by
  simp only [At, front?_eq_some_iff, List.drop_zero]
  exact ⟨fun ⟨written, rest, h⟩ => ⟨rest, written, h⟩, fun ⟨rest, written, h⟩ => ⟨written, rest, h⟩⟩

theorem at_succ_iff {c : Char} {cs : List Char} {i : Nat} {name : String} :
    At (c :: cs) (i + 1) name ↔ At cs i name := by
  rw [At, List.drop_succ_cons]
  rfl

theorem not_at_nil {i : Nat} {name : String} : ¬ At [] i name := by
  rintro ⟨written, rest, ⟨_, _, _, _, _, rfl⟩, h⟩
  simp at h

/-- A placeholder is written at the front of a text, or behind its first character. -/
theorem exists_at_cons {c : Char} {cs : List Char} {name : String} :
    (∃ i, At (c :: cs) i name) ↔ At (c :: cs) 0 name ∨ ∃ i, At cs i name := by
  constructor
  · rintro ⟨i, h⟩
    cases i with
    | zero => exact Or.inl h
    | succ i => exact Or.inr ⟨i, at_succ_iff.mp h⟩
  · rintro (h | ⟨i, h⟩)
    · exact ⟨0, h⟩
    · exact ⟨i + 1, at_succ_iff.mpr h⟩

/-- The names of placeholders are those that are written somewhere. -/
theorem mem_occurrences_iff {cs : List Char} {name : String} :
    name ∈ occurrences cs ↔ ∃ i, At cs i name := by
  induction cs with
  | nil => simp [occurrences, not_at_nil]
  | cons c cs ih =>
    have hfront : name ∈ ((front? (c :: cs)).map fun found => String.ofList found.1).toList ↔
        ∃ rest, front? (c :: cs) = some (name.toList, rest) := by
      simp only [Option.mem_toList, Option.map_eq_some_iff, Prod.exists]
      constructor
      · rintro ⟨found, rest, h, rfl⟩
        exact ⟨rest, by rw [h, String.toList_ofList]⟩
      · rintro ⟨rest, h⟩
        exact ⟨name.toList, rest, h, String.ofList_toList⟩
    rw [occurrences, List.mem_append, hfront, ih, exists_at_cons, at_zero_iff]

/-- A text has the variables that are written somewhere. -/
theorem mem_names_iff {s name : String} : name ∈ names s ↔ ∃ i, At s.toList i name := by
  rw [names_eq_occurrences, List.mem_eraseDups, mem_occurrences_iff]

/-- The name of a variable is not empty. -/
theorem ne_empty_of_mem_names {s name : String} (h : name ∈ names s) : name ≠ "" := by
  obtain ⟨i, written, rest, ⟨hname, _⟩, _⟩ := mem_names_iff.mp h
  rintro rfl
  exact hname

/-- Only one placeholder is written at a position. -/
theorem At.eq {cs : List Char} {i : Nat} {a b : String} (ha : At cs i a) (hb : At cs i b) :
    a = b := by
  obtain ⟨written, rest, hwritten, hrest⟩ := ha
  obtain ⟨written', rest', hwritten', hrest'⟩ := hb
  have hfront := front?_eq_some_iff.mpr ⟨written, hwritten, hrest⟩
  rw [front?_eq_some_iff.mpr ⟨written', hwritten', hrest'⟩] at hfront
  exact String.toList_inj.mp (Prod.mk.inj (Option.some.inj hfront)).1.symm

/-- Variables stand in the order in which they are first written. -/
theorem pairwise_eraseDups_occurrences (cs : List Char) :
    (occurrences cs).eraseDups.Pairwise fun a b => ∀ j, At cs j b → ∃ i < j, At cs i a := by
  induction cs with
  | nil => exact List.Pairwise.nil
  | cons c cs ih =>
    -- What is written behind the first character keeps its order.
    have hlater : ∀ a b, (∀ j, At cs j b → ∃ i < j, At cs i a) → ¬ At (c :: cs) 0 b →
        ∀ j, At (c :: cs) j b → ∃ i < j, At (c :: cs) i a := by
      intro a b hab hb j hj
      cases j with
      | zero => exact absurd hj hb
      | succ j =>
        obtain ⟨i, hi, ha⟩ := hab j (at_succ_iff.mp hj)
        exact ⟨i + 1, Nat.succ_lt_succ hi, at_succ_iff.mpr ha⟩
    cases hfront : front? (c :: cs) with
    | none =>
      rw [occurrences_of_front?_eq_none hfront]
      refine ih.imp fun {a b} hab => hlater a b hab fun hzero => ?_
      obtain ⟨rest, hrest⟩ := at_zero_iff.mp hzero
      rw [hfront] at hrest
      cases hrest
    | some found =>
      have hzero : At (c :: cs) 0 (String.ofList found.1) :=
        at_zero_iff.mpr ⟨found.2, by rw [hfront, String.toList_ofList]⟩
      have hother : ∀ b ≠ String.ofList found.1, ¬ At (c :: cs) 0 b :=
        fun b hb hat => hb (hat.eq hzero)
      rw [occurrences, hfront, Option.map_some, Option.toList_some, List.singleton_append,
        List.eraseDups_cons, eraseDups_filter]
      refine List.pairwise_cons.mpr ⟨fun b hb j hj => ?_, ?_⟩
      · have hne : b ≠ String.ofList found.1 := by simpa using (List.mem_filter.mp hb).2
        exact ⟨0, Nat.pos_of_ne_zero fun heq => hother b hne (heq ▸ hj), hzero⟩
      · refine (ih.filter _).imp_of_mem fun {a b} _ hb hab => hlater a b hab ?_
        exact hother b (by simpa using (List.mem_filter.mp hb).2)

theorem pairwise_names (s : String) : (names s).Pairwise fun a b =>
    ∀ j, At s.toList j b → ∃ i < j, At s.toList i a := by
  rw [names_eq_occurrences]
  exact pairwise_eraseDups_occurrences s.toList

theorem nodup_names (s : String) : (names s).Nodup := nodup_eraseDups _

end Placeholder

end Swimlane
