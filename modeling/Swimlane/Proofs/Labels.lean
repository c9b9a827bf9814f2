import Swimlane.Proofs.Identifiers
import Swimlane.Proofs.LetterCase

/-!
# Labels and letter case

A label has a word for every word of a name.  Words are divided by separators, which have no case,
and begin at the capitals of a name in camel case, which are lost in lower case.  So a name and its
lower case have the same label exactly if no word begins at a capital.

## Key results

- `length_pieces`: the pieces of a text are counted by their first characters
- `starts_spaceCamel`: every boundary in camel case begins a word
- `pieces_lower`: lower case keeps the pieces between separators
- `label_lower_iff`: when a name and its lower case have one label
-/

namespace Swimlane.Text

/-! ## Counting pieces -/

/-- How many pieces of a text begin in it, if the text stands behind a dividing character or not. -/
def starts (p : Char → Bool) (behind : Bool) : List Char → Nat
  | [] => 0
  | c :: cs => if p c then starts p true cs else (if behind then 1 else 0) + starts p false cs

section Pieces

variable {p : Char → Bool}

/-- A text has as many pieces as begin in it. -/
theorem length_pieces (cs : List Char) : (pieces p cs).length = starts p true cs := by
  -- The first part of a split text goes on with the piece before it, if there is one.
  have hsplit : ∀ first rest, cs.splitOnP p = first :: rest →
      starts p true cs = ((first :: rest).filter (!·.isEmpty)).length ∧
      starts p false cs = (rest.filter (!·.isEmpty)).length := by
    induction cs with
    | nil =>
      intro first rest h
      cases h
      exact ⟨rfl, rfl⟩
    | cons c cs ih =>
      intro first rest h
      obtain ⟨next, more, hcs⟩ := List.exists_cons_of_ne_nil (List.splitOnP_ne_nil p cs)
      obtain ⟨htrue, hfalse⟩ := ih next more hcs
      rw [List.splitOnP_cons_eq_if_modifyHead, hcs] at h
      rw [starts, starts]
      by_cases hc : p c = true
      · rw [if_pos hc] at h
        cases h
        rw [if_pos hc, if_pos hc, htrue]
        exact ⟨rfl, rfl⟩
      · rw [if_neg hc] at h
        cases h
        rw [if_neg hc, if_neg hc, hfalse]
        simp [Nat.add_comm]
  obtain ⟨first, rest, h⟩ := List.exists_cons_of_ne_nil (List.splitOnP_ne_nil p cs)
  rw [pieces, h]
  exact (hsplit first rest h).1.symm

/-- A text with a character that does not divide it has a piece. -/
theorem starts_pos {cs : List Char} {c : Char} (hmem : c ∈ cs) (hc : p c = false) :
    0 < starts p true cs := by
  induction cs with
  | nil => cases hmem
  | cons d cs ih =>
    rw [starts]
    by_cases hd : p d = true
    · rw [if_pos hd]
      apply ih
      cases List.mem_cons.mp hmem with
      | inl heq => rw [heq, hd] at hc; cases hc
      | inr h => exact h
    · rw [if_neg hd, if_pos rfl]
      omega

/-- Pieces are kept where characters are replaced that do not divide the text. -/
theorem splitOnP_flatMap {f : Char → List Char} (hdivide : ∀ c, p c = true → f c = [c])
    (hother : ∀ c, p c = false → ∀ d ∈ f c, p d = false) (cs : List Char) :
    (cs.flatMap f).splitOnP p = (cs.splitOnP p).map (·.flatMap f) := by
  induction cs with
  | nil => rfl
  | cons c cs ih =>
    obtain ⟨next, more, hcs⟩ := List.exists_cons_of_ne_nil (List.splitOnP_ne_nil p cs)
    rw [hcs] at ih
    rw [List.flatMap_cons, List.splitOnP_cons_eq_if_modifyHead, hcs]
    cases hc : p c with
    | true =>
      rw [hdivide c hc, List.singleton_append, List.splitOnP_cons_eq_if_modifyHead, if_pos hc, ih,
        if_pos rfl]
      rfl
    | false =>
      -- What stands for the character goes to the front of the first part.
      have hfront : ∀ part : List Char, (∀ d ∈ part, p d = false) →
          (part ++ cs.flatMap f).splitOnP p =
            (part ++ next.flatMap f) :: more.map (·.flatMap f) := by
        intro part hpart
        induction part with
        | nil => exact ih
        | cons d part ihp =>
          rw [List.cons_append, List.splitOnP_cons_eq_if_modifyHead,
            ihp fun e he => hpart e (List.mem_cons_of_mem _ he), hpart d List.mem_cons_self]
          rfl
      rw [hfront (f c) (hother c hc), if_neg Bool.false_ne_true, List.modifyHead_cons,
        List.map_cons, List.flatMap_cons]

end Pieces

/-- Without capital sigmas, the lower case of a text has the pieces of the text in lower case. -/
theorem pieces_lower {cs : List Char} (h : 'Σ' ∉ cs) :
    pieces isSeparator (lower cs) = (pieces isSeparator cs).map (·.flatMap lowerChar) := by
  have hempty : ∀ part : List Char, (part.flatMap lowerChar).isEmpty = part.isEmpty := by
    intro part
    cases part with
    | nil => rfl
    | cons c rest => simp [lowerChar_ne_nil]
  rw [lower_eq_flatMap h, pieces, pieces, splitOnP_flatMap (fun _ => lowerChar_of_isSeparator)
    (fun _ hc _ hd => isSeparator_of_mem_lowerChar hc hd), List.filter_map]
  simp only [Function.comp_def, hempty]

/-! ## Camel case -/

/-- ASCII letters and digits do not divide words. -/
theorem isSeparator_of_isAlphanum {c : Char} (h : c.isAlphanum = true) : isSeparator c = false := by
  have hascii : ∀ n < 128, (Char.ofNat n).isAlphanum = true →
      isSeparator (Char.ofNat n) = false := by decide +kernel
  have hlow : c.toNat < 128 := by
    simp only [Char.isAlphanum, Char.isAlpha, Char.isUpper, Char.isLower, Char.isDigit,
      Bool.or_eq_true, decide_eq_true_eq, Bool.and_eq_true, ge_iff_le, UInt32.le_iff_toNat_le] at h
    show c.val.toNat < 128
    rcases h with (⟨_, h⟩ | ⟨_, h⟩) | ⟨_, h⟩
    all_goals exact Nat.lt_of_le_of_lt h (by decide)
  rw [← Char.ofNat_toNat c] at h ⊢
  exact hascii _ hlow h

/-- At a boundary in camel case stand letters and digits. -/
theorem isSeparator_of_isCamelBoundary {a b : Char} {next : Option Char}
    (h : isCamelBoundary a b next = true) : isSeparator a = false ∧ isSeparator b = false := by
  simp only [isCamelBoundary, Bool.and_eq_true, Bool.or_eq_true] at h
  obtain ⟨hb, ha⟩ := h
  constructor
  · apply isSeparator_of_isAlphanum
    rcases ha with (ha | ha) | ⟨ha, _⟩ <;> simp [Char.isAlphanum, Char.isAlpha, ha]
  · apply isSeparator_of_isAlphanum
    simp [Char.isAlphanum, Char.isAlpha, hb]

/-- Without ASCII capitals nothing is in camel case. -/
theorem spaceCamel_of_not_isUpper {cs : List Char} (h : ∀ c ∈ cs, c.isUpper = false) :
    spaceCamel cs = cs := by
  fun_induction spaceCamel cs with
  | case1 a b rest hboundary ih =>
    rw [isCamelBoundary, h b (by simp), Bool.false_and] at hboundary
    cases hboundary
  | case2 a b rest _ ih => rw [ih fun c hc => h c (List.mem_cons_of_mem _ hc)]
  | case3 cs _ => rfl

/-- Boundaries make a name longer. -/
theorem length_spaceCamel (cs : List Char) : cs.length ≤ (spaceCamel cs).length ∧
    (cs.length = (spaceCamel cs).length → spaceCamel cs = cs) := by
  fun_induction spaceCamel cs with
  | case1 a b rest _ ih =>
    simp only [List.length_cons] at ih ⊢
    omega
  | case2 a b rest _ ih =>
    simp only [List.length_cons] at ih ⊢
    refine ⟨by omega, fun h => ?_⟩
    rw [ih.2 (by omega)]
  | case3 cs _ => exact ⟨Nat.le_refl _, fun _ => rfl⟩

/-- Every boundary in camel case begins a word. -/
theorem starts_spaceCamel (behind : Bool) (cs : List Char) :
    starts isSeparator behind (spaceCamel cs) + cs.length =
      starts isSeparator behind cs + (spaceCamel cs).length := by
  fun_induction spaceCamel cs generalizing behind with
  | case1 a b rest hboundary ih =>
    obtain ⟨ha, hb⟩ := isSeparator_of_isCamelBoundary hboundary
    have hblank : isSeparator ' ' = true := by decide
    have htrue := ih true
    simp only [starts, ha, hb, hblank, List.length_cons, if_true, if_false,
      Bool.false_eq_true] at htrue ⊢
    omega
  | case2 a b rest _ ih =>
    have htrue := ih true
    have hfalse := ih false
    simp only [starts, List.length_cons] at htrue hfalse ⊢
    split <;> omega
  | case3 cs _ => rfl

/-! ## Labels -/

/-- The characters of the label of a name. -/
def labelChars (cs : List Char) : List Char := [' '].intercalate ((nameWords cs).map capitalize)

theorem toList_label (name : String) : (label name).toList = labelChars name.toList := by
  rw [label, String.toList_intercalate, labelChars, List.map_map]
  simp [Function.comp_def]

/-- Joined words have one blank less than there are words. -/
theorem count_intercalate {words : List (List Char)} (h : ∀ w ∈ words, w.count ' ' = 0) :
    ([' '].intercalate words).count ' ' = words.length - 1 := by
  induction words with
  | nil => rfl
  | cons w rest ih =>
    cases rest with
    | nil => simpa using h w
    | cons next more =>
      rw [List.intercalate_cons_cons, List.count_append, List.count_append,
        h w List.mem_cons_self, ih fun v hv => h v (List.mem_cons_of_mem _ hv)]
      simp [Nat.add_comm]

/-- A label has one blank less than the name has words. -/
theorem count_labelChars (cs : List Char) :
    (labelChars cs).count ' ' = (nameWords cs).length - 1 := by
  have hwords : ∀ w ∈ (nameWords cs).map capitalize, w.count ' ' = 0 := by
    intro w hw
    obtain ⟨word, hword, rfl⟩ := List.mem_map.mp hw
    have hnot : ∀ c ∈ word, c ≠ ' ' := by
      rintro c hc rfl
      exact absurd (mem_pieces hword ' ' hc).2 (by decide)
    cases word with
    | nil => rfl
    | cons c rest =>
      have hrest : rest.count ' ' = 0 :=
        List.count_eq_zero.mpr fun hmem => hnot ' ' (List.mem_cons_of_mem _ hmem) rfl
      have hfirst : (upperChar c).count ' ' = 0 :=
        List.count_eq_zero.mpr (not_mem_upperChar (hnot c List.mem_cons_self))
      rw [capitalize, List.count_append, count_lower, hrest, hfirst]
  rw [labelChars, count_intercalate hwords, List.length_map]

/-- A character with the capital of its lower case.  The irregular ones are the capitals of a dotted
    `i` and of a sharp `s`, and the signs for Kelvin, Ångström, Ohm and theta. -/
def IsRegular (c : Char) : Prop := (lowerChar c).flatMap upperChar = upperChar c

instance (c : Char) : Decidable (IsRegular c) := inferInstanceAs (Decidable (_ = _))

/-- A text of regular characters, without capital sigmas. -/
def IsPlain (cs : List Char) : Prop := 'Σ' ∉ cs ∧ ∀ c ∈ cs, IsRegular c

instance (cs : List Char) : Decidable (IsPlain cs) := inferInstanceAs (Decidable (_ ∧ _))

/-- A text in ASCII is plain. -/
theorem isPlain_of_ascii {cs : List Char} (h : ∀ c ∈ cs, c.toNat < 128) : IsPlain cs := by
  have hascii : ∀ n < 128, IsRegular (Char.ofNat n) := by decide +kernel
  constructor
  · intro hsigma
    exact absurd (h 'Σ' hsigma) (by decide)
  · intro c hc
    rw [← Char.ofNat_toNat c]
    exact hascii _ (h c hc)

/-- The lower case of a plain word is written with the same capital. -/
theorem capitalize_lower {w : List Char} (h : IsPlain w) :
    capitalize (w.flatMap lowerChar) = capitalize w := by
  cases w with
  | nil => rfl
  | cons c rest =>
    have hregular := h.2 c List.mem_cons_self
    have hsigma : 'Σ' ∉ rest := fun hmem => h.1 (List.mem_cons_of_mem _ hmem)
    -- Only the dotted capital, which is not regular, has a longer lower case.
    have hone : ∃ d, lowerChar c = [d] := by
      rw [lowerChar]
      split
      · exact ⟨_, rfl⟩
      · split
        · rename_i hdot
          rw [hdot] at hregular
          exact absurd hregular (by decide +kernel)
        · exact ⟨_, rfl⟩
    obtain ⟨d, hd⟩ := hone
    have hcapital : upperChar d = upperChar c := by
      rw [← hregular, hd, List.flatMap_singleton]
    rw [List.flatMap_cons, hd, List.singleton_append, capitalize, capitalize, hcapital,
      ← lower_eq_flatMap hsigma, lower_lower]

/-- In lower case, the words of a plain name are those between its separators. -/
theorem nameWords_lower {cs : List Char} (h : 'Σ' ∉ cs) :
    nameWords (lower cs) = (pieces isSeparator cs).map (·.flatMap lowerChar) := by
  rw [nameWords, spaceCamel_of_not_isUpper fun c hc => (isSmall_of_mem_lower hc).ascii,
    pieces_lower h]

/-- The labels of a plain name and of its lower case differ in letter case at most exactly if the
    name is not in camel case. -/
theorem label_lower_iff {cs : List Char} (h : IsPlain cs) :
    lower (labelChars (lower cs)) = lower (labelChars cs) ↔ spaceCamel cs = cs := by
  constructor
  · intro hlabel
    have hcount := congrArg (List.count ' ') hlabel
    rw [count_lower, count_lower, count_labelChars, count_labelChars, nameWords_lower h.1,
      List.length_map, nameWords, length_pieces, length_pieces] at hcount
    -- Otherwise the name has more words than its lower case has.
    by_contra hcamel
    have hstarts := starts_spaceCamel true cs
    have hlonger := length_spaceCamel cs
    have hpos : 0 < starts isSeparator true cs := by
      by_contra hnone
      apply hcamel
      apply spaceCamel_of_not_isUpper
      intro c hc
      apply Bool.eq_false_iff.mpr
      intro hupper
      have hletter : c.isAlphanum = true := by simp [Char.isAlphanum, Char.isAlpha, hupper]
      exact hnone (starts_pos hc (isSeparator_of_isAlphanum hletter))
    have hne : cs.length ≠ (spaceCamel cs).length := fun heq => hcamel (hlonger.2 heq)
    omega
  · intro hcamel
    have hwords : (nameWords (lower cs)).map capitalize = (nameWords cs).map capitalize := by
      rw [nameWords_lower h.1, nameWords, hcamel, List.map_map]
      apply List.map_congr_left
      intro w hw
      have hsubset : ∀ c ∈ w, c ∈ cs := fun c hc => (mem_pieces hw c hc).1
      exact capitalize_lower
        ⟨fun hmem => h.1 (hsubset _ hmem), fun c hc => h.2 c (hsubset c hc)⟩
    rw [labelChars, hwords, labelChars]

end Swimlane.Text
