import Mathlib
import Swimlane.Text.Identifier

/-!
# Letter case

The lower case of a text is made letter by letter, sigmas apart.  It is final: what is once in lower
case stays as it is, and has no ASCII capitals.  Changing the case neither makes nor removes
characters that divide words.

The tables are looked at run by run.  What a run leads to is covered by no run, because it lies
before or behind the run, or between its letters.

## Key results

- `not_covers_of_isApart`: a run that is apart from another one does not lead to its letters
- `isSmall_of_mem_lowerChar`: the lower case of a letter has no lower case but itself
- `lower_lower`: the lower case of a text is in lower case
- `count_lower`: lower case keeps the blanks of a text
-/

namespace Swimlane.Text

/-! ## Runs -/

/-- The letters of a run lie between its ends. -/
theorem CaseRun.covers_iff {r : CaseRun} {n : Nat} :
    r.covers n = true ↔ r.first ≤ n ∧ n ≤ r.last ∧ (n - r.first) % r.step = 0 := by
  simp [CaseRun.covers, and_assoc]

/-- The least code point that a run leads to. -/
def CaseRun.low (r : CaseRun) : Nat := (r.first + r.shift).toNat

/-- The greatest code point that a run leads to. -/
def CaseRun.high (r : CaseRun) : Nat := (r.last + r.shift).toNat

/-- Whether a run does not lead to the letters of another run: it leads before or behind them, or
    only to places between them. -/
def CaseRun.isApart (r r' : CaseRun) : Bool :=
  Nat.blt r.high r'.first || Nat.blt r'.last r.low ||
    (r'.step == 2 && (r.step == 2 || r.low == r.high) && r.low % 2 != r'.first % 2)

/-- A run leads to code points between its ends, and every other one if its step is two. -/
theorem CaseRun.le_of_covers {r : CaseRun} {n : Nat} (h : r.covers n = true) (hlow : 0 < r.low) :
    r.low ≤ (n + r.shift).toNat ∧ (n + r.shift).toNat ≤ r.high ∧
      (r.step = 2 → (n + r.shift).toNat % 2 = r.low % 2) := by
  obtain ⟨hfirst, hlast, hstep⟩ := CaseRun.covers_iff.mp h
  unfold CaseRun.low at hlow
  unfold CaseRun.low CaseRun.high
  refine ⟨by omega, by omega, fun htwo => ?_⟩
  rw [htwo] at hstep
  omega

theorem CaseRun.not_covers_of_isApart {r r' : CaseRun} {n : Nat} (h : r.covers n = true)
    (hlow : 0 < r.low) (hapart : r.isApart r' = true) :
    r'.covers (n + r.shift).toNat = false := by
  obtain ⟨hleft, hright, hparity⟩ := CaseRun.le_of_covers h hlow
  apply Bool.eq_false_iff.mpr
  intro hcovers
  obtain ⟨hfirst, hlast, hstep⟩ := CaseRun.covers_iff.mp hcovers
  simp only [CaseRun.isApart, Bool.or_eq_true, Bool.and_eq_true, Nat.blt_eq, beq_iff_eq,
    bne_iff_ne, ne_eq] at hapart
  rcases hapart with (hbefore | hbehind) | ⟨⟨htwo, hbetween⟩, hodd⟩
  · omega
  · omega
  · -- The code point has the parity of the ends of the run.
    rw [htwo] at hstep
    have hsame : (n + r.shift).toNat % 2 = r.low % 2 := by
      cases hbetween with
      | inl h => exact hparity h
      | inr h => omega
    omega

/-! ## The table of small letters -/

/-- What the table must not lead to: letters with a lower case, and white space. -/
def unsettled : List CaseRun :=
  lowerRuns ++ ⟨304, 304, 1, 0⟩ :: blankRanges.map fun range => ⟨range.1, range.2, 1, 0⟩

/-- The table leads to no letter that has a lower case, and to no white space. -/
theorem lowerRuns_apart : (lowerRuns.all fun r => unsettled.all r.isApart) = true := by
  decide +kernel

/-- The table leads to characters behind the ASCII capitals. -/
theorem lowerRuns_low : (lowerRuns.all fun r => Nat.ble 97 r.low &&
    (Nat.blt r.high 55296 || Nat.blt 57343 r.low && Nat.blt r.high 1114112)) = true := by
  decide +kernel

/-- No white space has a lower case. -/
theorem lowerRuns_blank : (lowerRuns.all fun r => blankRanges.all fun range =>
    Nat.blt r.last range.1 || Nat.blt range.2 r.first) = true := by
  decide +kernel

/-- A character in one of the ranges lies between the ends of a range. -/
theorem exists_of_inRanges {n : Nat} {ranges : List (Nat × Nat)} (h : inRanges n ranges = true) :
    ∃ range ∈ ranges, range.1 ≤ n ∧ n ≤ range.2 := by
  induction ranges with
  | nil => cases h
  | cons range rest ih =>
    rw [inRanges] at h
    split at h
    · exact ⟨range, List.mem_cons_self, by simpa using h, ‹_›⟩
    · obtain ⟨r, hr, hn⟩ := ih h
      exact ⟨r, List.mem_cons_of_mem _ hr, hn⟩

/-- A letter that the table maps is no white space. -/
theorem isBlank_of_covers {c : Char} {r : CaseRun} (hr : r ∈ lowerRuns)
    (h : r.covers c.toNat = true) : isBlank c = false := by
  apply Bool.eq_false_iff.mpr
  intro hblank
  obtain ⟨range, hrange, hlow, hhigh⟩ := exists_of_inRanges hblank
  obtain ⟨hfirst, hlast, _⟩ := CaseRun.covers_iff.mp h
  have hapart := List.all_eq_true.mp (List.all_eq_true.mp lowerRuns_blank r hr) range hrange
  simp only [Bool.or_eq_true, Nat.blt_eq] at hapart
  omega

/-- The table maps a letter to a character that is not among the unsettled ones. -/
theorem settled_of_covers {c : Char} {r : CaseRun} (hr : r ∈ lowerRuns)
    (h : r.covers c.toNat = true) :
    97 ≤ (Char.ofNat (c.toNat + r.shift).toNat).toNat ∧
      ∀ r' ∈ unsettled, r'.covers (Char.ofNat (c.toNat + r.shift).toNat).toNat = false := by
  have hlow := List.all_eq_true.mp lowerRuns_low r hr
  simp only [Bool.and_eq_true, Bool.or_eq_true, Nat.ble_eq, Nat.blt_eq] at hlow
  obtain ⟨hleft, hright, _⟩ := CaseRun.le_of_covers h (by omega)
  -- No surrogate lies between the ends of a run.
  have hvalid : ((c.toNat : Int) + r.shift).toNat.isValidChar := by
    unfold Nat.isValidChar
    omega
  rw [Char.toNat_ofNat, if_pos hvalid]
  refine ⟨by omega, fun r' hr' => ?_⟩
  exact CaseRun.not_covers_of_isApart h (by omega)
    (List.all_eq_true.mp (List.all_eq_true.mp lowerRuns_apart r hr) r' hr')

/-- What is not among the unsettled characters. -/
theorem not_covers_of_unsettled {c : Char} (h : ∀ r ∈ unsettled, r.covers c.toNat = false) :
    (∀ r ∈ lowerRuns, r.covers c.toNat = false) ∧ c ≠ 'İ' ∧ isBlank c = false := by
  rw [unsettled, List.forall_mem_append, List.forall_mem_cons] at h
  obtain ⟨hruns, hdot, hblank⟩ := h
  refine ⟨hruns, ?_, Bool.eq_false_iff.mpr fun hin => ?_⟩
  · rintro rfl
    exact absurd hdot (by decide +kernel)
  · obtain ⟨range, hrange, hlow, hhigh⟩ := exists_of_inRanges hin
    have hnot := hblank _ (List.mem_map_of_mem hrange)
    rw [CaseRun.covers_iff.mpr ⟨hlow, hhigh, Nat.mod_one _⟩] at hnot
    cases hnot

/-- The other characters that divide words stand before the ASCII small letters. -/
theorem isSeparator_eq_isBlank {c : Char} (h : 97 ≤ c.toNat) : isSeparator c = isBlank c := by
  have hne : ∀ d : Char, d.toNat < 97 → (c == d) = false := by
    intro d hd
    apply beq_eq_false_iff_ne.mpr
    rintro rfl
    omega
  rw [isSeparator, hne '_' (by decide), hne '.' (by decide), hne '-' (by decide), Bool.or_false,
    Bool.or_false, Bool.or_false]

/-! ## Small letters -/

/-- A character that lower case leaves as it is, wherever it stands, and that is no ASCII
    capital. -/
structure IsSmall (c : Char) : Prop where
  lower : lowerChar c = [c]
  sigma : c ≠ 'Σ'
  ascii : c.isUpper = false

/-- The table has a small sigma for the capital one. -/
theorem lowerRuns_sigma : lowerRuns.any (·.covers 'Σ'.toNat) = true := by decide +kernel

/-- What no run covers is small. -/
theorem isSmall_of_not_covers {c : Char} (hc : 97 ≤ c.toNat) (hdot : c ≠ 'İ')
    (h : ∀ r ∈ lowerRuns, r.covers c.toNat = false) : IsSmall c := by
  have hupper : ¬ (c.val ≥ 'A'.val ∧ c.val ≤ 'Z'.val) := by
    rintro ⟨_, hz⟩
    have hz : c.toNat ≤ 90 := hz
    omega
  constructor
  · rw [lowerChar]
    split
    · rw [Char.toLower, dif_neg hupper]
    · have hnone : lowerRuns.find? (·.covers c.toNat) = none :=
        List.find?_eq_none.mpr fun r hr => by rw [h r hr]; exact Bool.false_ne_true
      rw [CaseRun.apply, hnone]
  · rintro rfl
    obtain ⟨r, hr, hcovers⟩ := List.any_eq_true.mp lowerRuns_sigma
    rw [h r hr] at hcovers
    cases hcovers
  · exact decide_eq_false hupper

/-- A character that is no separator, with a lower case of small characters that are no separators
    either. -/
structure IsLetter (c : Char) : Prop where
  separator : isSeparator c = false
  nonempty : lowerChar c ≠ []
  lower : ∀ d ∈ lowerChar c, IsSmall d ∧ isSeparator d = false

/-- ASCII characters are small or letters. -/
theorem small_or_letter_ascii : ∀ n < 128, IsSmall (Char.ofNat n) ∨ IsLetter (Char.ofNat n) := by
  have hsmall : ∀ n < 128, (Char.ofNat n).isUpper = false →
      lowerChar (Char.ofNat n) = [Char.ofNat n] ∧ Char.ofNat n ≠ 'Σ' := by decide +kernel
  have hcapital : ∀ n < 128, (Char.ofNat n).isUpper = true → ∃ m < 128,
      lowerChar (Char.ofNat n) = [Char.ofNat m] ∧ (Char.ofNat m).isUpper = false ∧
      isSeparator (Char.ofNat m) = false ∧ isSeparator (Char.ofNat n) = false := by
    decide +kernel
  intro n hn
  cases hcase : (Char.ofNat n).isUpper with
  | false =>
    obtain ⟨hlower, hsigma⟩ := hsmall n hn hcase
    exact Or.inl ⟨hlower, hsigma, hcase⟩
  | true =>
    obtain ⟨m, hm, hlower, hupper, hseparator, hnot⟩ := hcapital n hn hcase
    obtain ⟨hlower', hsigma⟩ := hsmall m hm hupper
    refine Or.inr ⟨hnot, by simp [hlower], fun d hd => ?_⟩
    rw [hlower, List.mem_singleton] at hd
    rw [hd]
    exact ⟨⟨hlower', hsigma, hupper⟩, hseparator⟩

/-- Every character is small or a letter. -/
theorem small_or_letter (c : Char) : IsSmall c ∨ IsLetter c := by
  by_cases hascii : c.toNat < 128
  · rw [← Char.ofNat_toNat c]
    exact small_or_letter_ascii _ hascii
  by_cases hdot : c = 'İ'
  · rw [hdot]
    refine Or.inr ⟨by decide +kernel, by decide +kernel, fun d hd => ?_⟩
    have hpart : d = 'i' ∨ d = '\u0307' := by simpa [lowerChar] using hd
    cases hpart with
    | inl h => rw [h]; exact ⟨⟨by decide, by decide, by decide⟩, by decide +kernel⟩
    | inr h => rw [h]; exact ⟨⟨by decide +kernel, by decide, by decide⟩, by decide +kernel⟩
  have hlower : lowerChar c = [CaseRun.apply lowerRuns c] := by
    rw [lowerChar, if_neg hascii, if_neg hdot]
  cases hrun : lowerRuns.find? (·.covers c.toNat) with
  | none =>
    have hnone : ∀ r ∈ lowerRuns, r.covers c.toNat = false := fun r hr =>
      Bool.eq_false_iff.mpr (List.find?_eq_none.mp hrun r hr)
    exact Or.inl (isSmall_of_not_covers (by omega) hdot hnone)
  | some r =>
    have hmem := List.mem_of_find?_eq_some hrun
    have hcovers : r.covers c.toNat = true := by simpa using List.find?_some hrun
    obtain ⟨hlow, hsettled⟩ := settled_of_covers hmem hcovers
    simp only [CaseRun.apply, hrun] at hlower
    refine Or.inr ⟨?_, by rw [hlower]; exact List.cons_ne_nil _ _, fun d hd => ?_⟩
    · rw [isSeparator_eq_isBlank (by omega)]
      exact isBlank_of_covers hmem hcovers
    · rw [hlower, List.mem_singleton] at hd
      rw [← hd] at hlow hsettled
      obtain ⟨hruns, hdotted, hblank⟩ := not_covers_of_unsettled hsettled
      rw [isSeparator_eq_isBlank hlow]
      exact ⟨isSmall_of_not_covers hlow hdotted hruns, hblank⟩

/-- The lower case of a character is small. -/
theorem isSmall_of_mem_lowerChar {c d : Char} (h : d ∈ lowerChar c) : IsSmall d := by
  cases small_or_letter c with
  | inl hsmall =>
    rw [hsmall.lower, List.mem_singleton] at h
    exact h ▸ hsmall
  | inr hletter => exact (hletter.lower d h).1

/-- A separator is its own lower case. -/
theorem lowerChar_of_isSeparator {c : Char} (h : isSeparator c = true) : lowerChar c = [c] := by
  cases small_or_letter c with
  | inl hsmall => exact hsmall.lower
  | inr hletter => rw [hletter.separator] at h; cases h

/-- No other character has a separator for lower case. -/
theorem isSeparator_of_mem_lowerChar {c d : Char} (hc : isSeparator c = false)
    (h : d ∈ lowerChar c) : isSeparator d = false := by
  cases small_or_letter c with
  | inl hsmall =>
    rw [hsmall.lower, List.mem_singleton] at h
    exact h ▸ hc
  | inr hletter => exact (hletter.lower d h).2

theorem lowerChar_ne_nil (c : Char) : lowerChar c ≠ [] := by
  cases small_or_letter c with
  | inl hsmall => rw [hsmall.lower]; exact List.cons_ne_nil _ _
  | inr hletter => exact hletter.nonempty

/-! ## Lower case of texts -/

/-- Without capital sigmas, the lower case of a text is made letter by letter. -/
theorem lower_eq_flatMap {cs : List Char} (h : 'Σ' ∉ cs) : lower cs = cs.flatMap lowerChar := by
  have hafter : ∀ before, lowerAfter before cs = cs.flatMap lowerChar := by
    induction cs with
    | nil => exact fun _ => rfl
    | cons c rest ih =>
      intro before
      rw [List.mem_cons, not_or] at h
      rw [lowerAfter, if_neg (Ne.symm h.1), ih h.2, List.flatMap_cons]
  exact hafter []

/-- The lower case of a character that some text stands before and behind. -/
theorem lowerAfter_cons (before : List Char) (c : Char) (rest : List Char) :
    ∃ part, lowerAfter before (c :: rest) = part ++ lowerAfter (c :: before) rest ∧
      (∀ d ∈ part, IsSmall d) ∧ part.count ' ' = [c].count ' ' := by
  refine ⟨_, rfl, ?_⟩
  by_cases hsigma : c = 'Σ'
  · rw [if_pos hsigma, hsigma]
    cases isFinalSigma before rest
    · refine ⟨fun d hd => ?_, by decide⟩
      rw [List.mem_singleton.mp hd]
      exact ⟨by decide +kernel, by decide, by decide⟩
    · refine ⟨fun d hd => ?_, by decide⟩
      rw [List.mem_singleton.mp hd]
      exact ⟨by decide +kernel, by decide, by decide⟩
  · rw [if_neg hsigma]
    refine ⟨fun d hd => isSmall_of_mem_lowerChar hd, ?_⟩
    cases hc : isSeparator c with
    | true => rw [lowerChar_of_isSeparator hc]
    | false =>
      -- A blank is a separator.
      have hblank : ∀ cs : List Char, (∀ d ∈ cs, isSeparator d = false) → cs.count ' ' = 0 := by
        intro cs hcs
        apply List.count_eq_zero.mpr
        intro hmem
        exact absurd (hcs ' ' hmem) (by decide)
      rw [hblank _ fun d hd => isSeparator_of_mem_lowerChar hc hd, hblank [c]]
      simpa using hc

/-- The characters of a text in lower case are small. -/
theorem isSmall_of_mem_lower {cs : List Char} {d : Char} (h : d ∈ lower cs) : IsSmall d := by
  have hafter : ∀ before, d ∈ lowerAfter before cs → IsSmall d := by
    clear h
    induction cs with
    | nil => exact fun _ h => absurd h List.not_mem_nil
    | cons c rest ih =>
      intro before h
      obtain ⟨part, heq, hsmall, _⟩ := lowerAfter_cons before c rest
      rw [heq, List.mem_append] at h
      cases h with
      | inl hpart => exact hsmall d hpart
      | inr hrest => exact ih _ hrest
  exact hafter [] h

/-- Lower case keeps the blanks of a text. -/
theorem count_lower (cs : List Char) : (lower cs).count ' ' = cs.count ' ' := by
  have hafter : ∀ before, (lowerAfter before cs).count ' ' = cs.count ' ' := by
    induction cs with
    | nil => exact fun _ => rfl
    | cons c rest ih =>
      intro before
      obtain ⟨part, heq, _, hcount⟩ := lowerAfter_cons before c rest
      rw [heq, List.count_append, ih, hcount, ← List.count_append, List.singleton_append]
  exact hafter []

/-- A text of small characters is its own lower case. -/
theorem lower_of_isSmall {cs : List Char} (h : ∀ c ∈ cs, IsSmall c) : lower cs = cs := by
  rw [lower_eq_flatMap fun hmem => (h _ hmem).sigma rfl]
  induction cs with
  | nil => rfl
  | cons c rest ih =>
    rw [List.flatMap_cons, (h c List.mem_cons_self).lower, List.singleton_append,
      ih fun d hd => h d (List.mem_cons_of_mem _ hd)]

/-- The lower case of a text is in lower case. -/
theorem lower_lower (cs : List Char) : lower (lower cs) = lower cs :=
  lower_of_isSmall fun _ hc => isSmall_of_mem_lower hc

/-! ## Upper case -/

/-- The tables of capitals lead to no blank. -/
theorem upperRuns_low : (upperRuns.all fun r => Nat.blt 32 r.low) = true ∧
    (upperExpansions.all fun p => p.2.all fun code => Nat.blt 32 code) = true := by
  decide +kernel

/-- A blank is the only character that has a blank for its upper case. -/
theorem not_mem_upperChar {c : Char} (hc : c ≠ ' ') : ' ' ∉ upperChar c := by
  have hofNat : ∀ n, 32 < n → Char.ofNat n ≠ ' ' := by
    intro n hn heq
    have hcode := congrArg Char.toNat heq
    rw [Char.toNat_ofNat] at hcode
    split at hcode
    · have hcode : n = 32 := hcode
      omega
    · cases hcode
  have hascii : ∀ n < 128, Char.ofNat n ≠ ' ' → (Char.ofNat n).toUpper ≠ ' ' := by decide +kernel
  intro hmem
  rw [upperChar] at hmem
  split at hmem
  · rename_i hlow
    rw [← Char.ofNat_toNat c] at hc hmem
    exact hascii _ hlow hc (List.mem_singleton.mp hmem).symm
  · split at hmem
    · rename_i codes hcodes
      obtain ⟨code, hcode, heq⟩ := List.mem_map.mp hmem
      obtain ⟨before, behind, htable, _⟩ := List.lookup_eq_some_iff.mp hcodes
      have hentry : (c.toNat, codes) ∈ upperExpansions := by rw [htable]; simp
      have hall := List.all_eq_true.mp (List.all_eq_true.mp upperRuns_low.2 _ hentry) code hcode
      exact hofNat code (Nat.blt_eq.mp hall) heq
    · rw [List.mem_singleton, CaseRun.apply] at hmem
      split at hmem
      · rename_i r hr
        have hlow := Nat.blt_eq.mp
          (List.all_eq_true.mp upperRuns_low.1 r (List.mem_of_find?_eq_some hr))
        have hcovers : r.covers c.toNat = true := by simpa using List.find?_some hr
        obtain ⟨hleft, _⟩ := CaseRun.le_of_covers hcovers (by omega)
        exact hofNat _ (by omega) hmem.symm
      · exact hc hmem.symm

end Swimlane.Text
