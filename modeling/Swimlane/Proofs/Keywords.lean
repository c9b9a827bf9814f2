import Mathlib
import Swimlane.Text.Keyword

/-!
# Where keywords stand

A keyword is written in any letter case, and is not part of a longer word.  The scanner that looks
for keywords goes from word to word.

## Key results

- `keyword?_eq_some_iff`, `wholeWord?_eq_some_iff`: keywords at the front of a text
- `wholeWord?_append`: a keyword does not reach beyond the end of a word
- `mentionsWord_iff`: keywords anywhere in a text
-/

namespace Swimlane.Text

/-! ## The front of a text -/

/-- Whether a word character stands at the end of a text, or in front of it if it is empty. -/
def endsInWord (inWord : Bool) (cs : List Char) : Bool := cs.foldl (fun _ c => isWordChar c) inWord

/-- The letters of keywords, in any case, are word characters. -/
theorem isWordChar_of_sameLetter {k c : Char} (hk : k.isLower = true)
    (h : sameLetter k c = true) : isWordChar c = true := by
  have hlower : isWordChar k = true := by
    simp [isWordChar, Char.isAlphanum, Char.isAlpha, hk]
  have hupper : isWordChar k.toUpper = true := by
    have hascii : ∀ n < 128, (Char.ofNat n).isLower = true →
        isWordChar (Char.ofNat n).toUpper = true := by decide +kernel
    have hlow : k.toNat < 128 := by
      simp only [Char.isLower, Bool.and_eq_true, decide_eq_true_eq, UInt32.le_iff_toNat_le] at hk
      exact Nat.lt_of_le_of_lt hk.2 (by decide)
    rw [← Char.ofNat_toNat k] at hk ⊢
    exact hascii _ hlow hk
  have hothers : isWordChar 'ſ' = true ∧ isWordChar 'K' = true ∧ isWordChar 'İ' = true ∧
      isWordChar 'ı' = true := by decide +kernel
  simp only [sameLetter, Bool.or_eq_true, Bool.and_eq_true, beq_iff_eq] at h
  obtain ⟨hs, hkelvin, hdotted, hdotless⟩ := hothers
  rcases h with (((rfl | ⟨_, rfl⟩) | ⟨_, rfl⟩) | ⟨_, rfl⟩) | ⟨_, rfl | rfl⟩
  exacts [hlower, hupper, hs, hkelvin, hdotted, hdotless]

section Append

variable {x : List Char} (hx : endsWord x = true)

include hx

/-- A word ends in front of what is no word character. -/
theorem endsWord_append (cs : List Char) : endsWord (cs ++ x) = endsWord cs := by
  cases cs with
  | nil => exact hx
  | cons c cs => rfl

/-- A keyword that a text starts with does not reach beyond the end of a word. -/
theorem keyword?_append {word : List Char} (hword : ∀ k ∈ word, k.isLower = true)
    (cs : List Char) : keyword? word (cs ++ x) = (keyword? word cs).map (· ++ x) := by
  induction word generalizing cs with
  | nil => rfl
  | cons k word ih =>
    obtain ⟨hk, hword⟩ := List.forall_mem_cons.mp hword
    cases cs with
    | cons c cs =>
      rw [List.cons_append, keyword?, keyword?, ih hword]
      split <;> rfl
    | nil =>
      -- The next letter of the keyword would have to be the character that ends the word.
      cases x with
      | nil => rfl
      | cons c rest =>
        have hc : sameLetter k c = false := by
          refine Bool.eq_false_iff.mpr fun hsame => ?_
          rw [endsWord, isWordChar_of_sameLetter hk hsame] at hx
          cases hx
        simp [keyword?, hc]

theorem wholeWord?_append {word : String} (hword : ∀ k ∈ word.toList, k.isLower = true)
    (cs : List Char) : wholeWord? word (cs ++ x) = (wholeWord? word cs).map (· ++ x) := by
  rw [wholeWord?, wholeWord?, keyword?_append hx hword]
  cases keyword? word.toList cs with
  | none => rfl
  | some rest =>
    simp only [Option.map_some, endsWord_append hx]
    split <;> rfl

end Append

/-- A keyword is found at the front of a text if it is written there, in any letter case. -/
theorem keyword?_eq_some_iff {word cs rest : List Char} : keyword? word cs = some rest ↔
    ∃ written, cs = written ++ rest ∧
      List.Forall₂ (fun k c => sameLetter k c = true) word written := by
  induction word generalizing cs with
  | nil => simp [keyword?]
  | cons k word ih =>
    cases cs with
    | nil =>
      simp only [keyword?, reduceCtorEq, false_iff]
      rintro ⟨written, heq, hwritten⟩
      cases hwritten
      cases heq
    | cons c cs =>
      rw [keyword?]
      constructor
      · intro h
        split at h
        · rename_i hsame
          obtain ⟨written, rfl, hwritten⟩ := ih.mp h
          exact ⟨c :: written, rfl, .cons hsame hwritten⟩
        · cases h
      · rintro ⟨written, heq, hwritten⟩
        cases hwritten with
        | cons hsame hwritten =>
          obtain ⟨rfl, rfl⟩ := List.cons.inj heq
          rw [if_pos hsame]
          exact ih.mpr ⟨_, rfl, hwritten⟩

/-- What a keyword of letters is written with are word characters. -/
theorem isWordChar_of_forall₂ {word written : List Char}
    (h : List.Forall₂ (fun k c => sameLetter k c = true) word written)
    (hword : ∀ k ∈ word, k.isLower = true) : ∀ c ∈ written, isWordChar c = true := by
  induction h with
  | nil => exact List.forall_mem_nil _
  | cons hsame _ ih =>
    obtain ⟨hk, hword⟩ := List.forall_mem_cons.mp hword
    exact List.forall_mem_cons.mpr ⟨isWordChar_of_sameLetter hk hsame, ih hword⟩

theorem wholeWord?_eq_some_iff {word : String} {cs rest : List Char} :
    wholeWord? word cs = some rest ↔
      keyword? word.toList cs = some rest ∧ endsWord rest = true := by
  rw [wholeWord?]
  cases keyword? word.toList cs with
  | none => simp
  | some behind =>
    by_cases hends : endsWord behind = true
    · simp only [hends, if_true, Option.some.injEq]
      exact ⟨fun heq => ⟨heq, heq ▸ hends⟩, And.left⟩
    · simp only [hends, Bool.false_eq_true, if_false, reduceCtorEq, Option.some.injEq, false_iff]
      exact fun h => hends (h.1 ▸ h.2)

/-! ## Anywhere in a text -/

/-- A phrase stands somewhere in a text, in any letter case, and is not part of a longer word. -/
def Mentions (phrase : String) (cs : List Char) : Prop :=
  ∃ before written after, cs = before ++ (written ++ after) ∧
    List.Forall₂ (fun k c => sameLetter k c = true) phrase.toList written ∧
    endsInWord false before = false ∧ endsWord after = true

/-- The start of a word is somewhere in the text, and no word character stands before it. -/
theorem anyWordStart_iff {p : List Char → Bool} {inWord : Bool} {cs : List Char} :
    anyWordStart p inWord cs = true ↔ ∃ before c rest, cs = before ++ c :: rest ∧
      isWordChar c = true ∧ endsInWord inWord before = false ∧ p (c :: rest) = true := by
  induction cs generalizing inWord with
  | nil => simp [anyWordStart]
  | cons d cs ih =>
    simp only [anyWordStart, Bool.or_eq_true, Bool.and_eq_true, Bool.not_eq_true', ih]
    constructor
    · rintro (⟨⟨hd, hword⟩, hp⟩ | ⟨before, c, rest, rfl, hc, hword, hp⟩)
      · exact ⟨[], d, cs, rfl, hd, hword, hp⟩
      · exact ⟨d :: before, c, rest, rfl, hc, hword, hp⟩
    · rintro ⟨before, c, rest, heq, hc, hword, hp⟩
      cases before with
      | nil =>
        obtain ⟨rfl, rfl⟩ := List.cons.inj heq
        exact Or.inl ⟨⟨hc, hword⟩, hp⟩
      | cons e before =>
        obtain ⟨rfl, rfl⟩ := List.cons.inj heq
        exact Or.inr ⟨before, c, rest, rfl, hc, hword, hp⟩

/-- Phrases that begin with letters are found where they are mentioned. -/
theorem mentionsWord_iff {phrases : List String}
    (h : (phrases.all fun phrase => phrase.toList.head?.any Char.isLower) = true)
    {cs : List Char} : mentionsWord phrases cs = true ↔ ∃ phrase ∈ phrases, Mentions phrase cs := by
  rw [mentionsWord, anyWordStart_iff]
  constructor
  · rintro ⟨before, c, rest, rfl, _, hword, hstarts⟩
    obtain ⟨phrase, hphrase, hfound⟩ := List.any_eq_true.mp hstarts
    obtain ⟨after, hafter⟩ := Option.isSome_iff_exists.mp hfound
    obtain ⟨hkeyword, hends⟩ := wholeWord?_eq_some_iff.mp hafter
    obtain ⟨written, heq, hwritten⟩ := keyword?_eq_some_iff.mp hkeyword
    exact ⟨phrase, hphrase, before, written, after, by rw [heq], hwritten, hword, hends⟩
  · rintro ⟨phrase, hphrase, before, written, after, rfl, hwritten, hword, hends⟩
    have hfirst := List.all_eq_true.mp h phrase hphrase
    have hfound : wholeWord? phrase (written ++ after) = some after :=
      wholeWord?_eq_some_iff.mpr ⟨keyword?_eq_some_iff.mpr ⟨written, rfl, hwritten⟩, hends⟩
    have hstarts : startsWithWord phrases (written ++ after) = true :=
      List.any_eq_true.mpr ⟨phrase, hphrase, by rw [hfound]; rfl⟩
    -- The first letter of the phrase is where a word starts.
    cases hletters : phrase.toList with
    | nil => rw [hletters] at hfirst; cases hfirst
    | cons k rest =>
      rw [hletters] at hwritten hfirst
      cases hwritten with
      | cons hsame _ =>
        exact ⟨before, _, _, rfl, isWordChar_of_sameLetter hfirst hsame, hword, hstarts⟩

end Swimlane.Text
