import Swimlane.Proofs.Sentences

/-!
# Placeholders and white space

White space is allowed between the braces of a placeholder and its name, in any amount.  So whether
a text has stray braces depends on its words alone.  A placeholder holds one word, its name.

## Key results

- `hasStrayBrace_of_blankWords_eq`: texts with the same words both have stray braces or both not
- `exists_mem_names_of_unclosed`: a keyword behind a brace that is not closed before is the name of
  a placeholder
-/

namespace Swimlane.Placeholder

open Text

/-! ## Squeezed texts -/

/-- A text in which a single blank stands for every stretch of white space; in front of the text
    there may be white space that counts as one with what the text begins with. -/
def squeeze (behind : Bool) : List Char → List Char
  | [] => []
  | c :: cs =>
    if isBlank c then (if behind then squeeze true cs else ' ' :: squeeze true cs)
    else c :: squeeze false cs

theorem squeeze_cons_of_isBlank {c : Char} (hc : isBlank c = true) (behind : Bool)
    (cs : List Char) : squeeze behind (c :: cs) =
      if behind then squeeze true cs else ' ' :: squeeze true cs := by
  rw [squeeze, if_pos hc]

theorem squeeze_cons {c : Char} (hc : isBlank c = false) (behind : Bool) (cs : List Char) :
    squeeze behind (c :: cs) = c :: squeeze false cs := by
  rw [squeeze, hc]
  rfl

theorem dropBlank_squeeze (behind : Bool) (cs : List Char) :
    dropBlank (squeeze behind cs) = squeeze true (dropBlank cs) := by
  induction cs generalizing behind with
  | nil => rfl
  | cons c cs ih =>
    rw [dropBlank, dropBlank]
    cases hc : isBlank c with
    | true =>
      have hblank : isBlank ' ' = true := by decide
      rw [List.dropWhile_cons_of_pos hc, squeeze_cons_of_isBlank hc]
      cases behind with
      | true => exact ih true
      | false =>
        rw [if_neg (by decide), List.dropWhile_cons_of_pos hblank]
        exact ih true
    | false =>
      rw [squeeze_cons hc, List.dropWhile_cons_of_neg (by simp [hc]),
        List.dropWhile_cons_of_neg (by simp [hc]), squeeze_cons hc]

/-- White space ends a name. -/
theorem takeWhile_squeeze (cs : List Char) :
    (squeeze false cs).takeWhile isNameChar = cs.takeWhile isNameChar ∧
      (squeeze false cs).dropWhile isNameChar = squeeze false (cs.dropWhile isNameChar) := by
  induction cs with
  | nil => exact ⟨rfl, rfl⟩
  | cons c cs ih =>
    cases hc : isBlank c with
    | true =>
      have hname := isNameChar_of_isBlank hc
      have hblank : isNameChar ' ' = false := by decide
      simp [squeeze_cons_of_isBlank hc, hname, hblank]
    | false =>
      rw [squeeze_cons hc, List.takeWhile_cons, List.takeWhile_cons, List.dropWhile_cons,
        List.dropWhile_cons, ih.1, ih.2]
      cases isNameChar c <;> simp [squeeze_cons hc]

/-- The same placeholder is found in a squeezed text. -/
theorem inner?_squeeze (behind : Bool) (cs : List Char) : inner? (squeeze behind cs) =
    (inner? cs).map fun found => (found.1, squeeze false found.2) := by
  -- A name begins behind the white space and has none in it, so it stays whole.
  have hname : ∀ cs : List Char, (∀ c ∈ cs.head?, isBlank c = false) →
      name? (squeeze true cs) = (name? cs).map fun found => (found.1, squeeze false found.2) := by
    intro cs hcs
    cases cs with
    | nil => rfl
    | cons c cs =>
      obtain ⟨htake, hdrop⟩ := takeWhile_squeeze cs
      rw [squeeze_cons (hcs c rfl), name?, name?, htake, hdrop]
      split <;> rfl
  have hdropped : ∀ c ∈ (dropBlank cs).head?, isBlank c = false :=
    fun c hc => eq_false_of_mem_head?_dropWhile hc
  simp only [inner?, dropBlank_squeeze, hname _ hdropped, Option.bind_eq_bind]
  cases name? (dropBlank cs) with
  | none => rfl
  | some found =>
    simp only [Option.map_some, Option.bind_some, dropBlank_squeeze]
    cases hrest : dropBlank found.2 with
    | nil => rfl
    | cons c more =>
      have hc : isBlank c = false :=
        eq_false_of_mem_head?_dropWhile (by rw [← dropBlank, hrest]; rfl)
      rw [squeeze_cons hc]
      by_cases heq : c = '}'
      · rw [heq]; rfl
      · simp [heq]

/-- A squeezed text has stray braces if the text has. -/
theorem any_parts_squeeze (behind : Bool) (cs : List Char) :
    (parts (squeeze behind cs)).any Part.isStrayBrace = (parts cs).any Part.isStrayBrace := by
  fun_induction parts cs generalizing behind with
  | case1 => rw [squeeze, parts]
  | case2 cs name rest hfound _ ih =>
    have hsqueezed := inner?_squeeze false cs
    rw [hfound, Option.map_some] at hsqueezed
    rw [squeeze_cons (by decide), parts_of_inner? hsqueezed, List.any_cons, List.any_cons, ih false]
  | case3 cs hnone ih =>
    have hsqueezed := inner?_squeeze false cs
    rw [hnone, Option.map_none] at hsqueezed
    rw [squeeze_cons (by decide), parts_of_inner?_eq_none hsqueezed, List.any_cons, List.any_cons,
      ih false]
  | case4 c cs hc ih =>
    cases hblank : isBlank c with
    | false =>
      rw [squeeze_cons hblank, parts, if_neg hc, List.any_cons, List.any_cons, ih false]
    | true =>
      -- White space is no brace, so it does not matter whether it is there.
      have hplain : ∀ d, isBlank d = true → (Part.char d).isStrayBrace = false := by
        intro d hd
        have hblank : ∀ c ∈ [d], isBlank c = true := by simpa using hd
        obtain ⟨hopening, hclosing⟩ := braceless_of_isBlank hblank
        rw [List.mem_singleton] at hopening hclosing
        simp [Part.isStrayBrace, Ne.symm hopening, Ne.symm hclosing]
      rw [squeeze_cons_of_isBlank hblank, List.any_cons, hplain c hblank, Bool.false_or]
      cases behind with
      | true => exact ih true
      | false =>
        rw [if_neg (by decide), parts, if_neg (by decide), List.any_cons, hplain ' ' (by decide),
          Bool.false_or, ih true]

/-- White space in front is squeezed away. -/
theorem squeeze_append_left {gap : List Char} (h : ∀ c ∈ gap, isBlank c = true)
    (rest : List Char) : squeeze true (gap ++ rest) = squeeze true rest := by
  induction gap with
  | nil => rfl
  | cons c gap ih =>
    obtain ⟨hc, hgap⟩ := List.forall_mem_cons.mp h
    rw [List.cons_append, squeeze_cons_of_isBlank hc, if_pos rfl, ih hgap]

/-- A word stays as it is. -/
theorem squeeze_solid_append {w : List Char} (hw : IsSolid w) (behind : Bool) (rest : List Char) :
    squeeze behind (w ++ rest) = w ++ squeeze false rest := by
  obtain ⟨hne, hsolid⟩ := hw
  induction w generalizing behind with
  | nil => exact absurd rfl hne
  | cons c w ih =>
    obtain ⟨hc, hsolid⟩ := List.forall_mem_cons.mp hsolid
    rw [List.cons_append, squeeze_cons hc]
    by_cases hnil : w = []
    · rw [hnil]; rfl
    · rw [ih false hnil hsolid]; rfl

/-- A squeezed text is its words with single blanks between them, and perhaps a blank behind
    them. -/
theorem exists_squeeze_eq (cs : List Char) : ∃ tail, (∀ c ∈ tail, isBlank c = true) ∧
    squeeze true cs = [' '].intercalate (blankWords cs) ++ tail := by
  -- By induction on the words: a stretch of white space between two of them goes in one step.
  generalize hwords : blankWords cs = words
  induction words generalizing cs with
  | nil =>
    refine ⟨[], by simp, ?_⟩
    have h := squeeze_append_left (isBlank_of_blankWords_eq_nil hwords) []
    rw [List.append_nil] at h
    rw [h]
    rfl
  | cons w words ih =>
    obtain ⟨gap, rest, rfl, hgap, hw, hrest, hbehind⟩ := exists_of_blankWords_eq_cons hwords
    rw [squeeze_append_left hgap, squeeze_solid_append hw]
    cases rest with
    | nil =>
      rw [← hbehind]
      exact ⟨[], by simp, by simp [squeeze, blankWords_eq_nil]⟩
    | cons d rest =>
      have hd := hrest d rfl
      rw [blankWords_cons hd] at hbehind
      obtain ⟨tail, htail, hsqueezed⟩ := ih rest hbehind
      rw [squeeze_cons_of_isBlank hd, if_neg (by decide), hsqueezed]
      cases words with
      | nil => exact ⟨' ' :: tail, List.forall_mem_cons.mpr ⟨by decide, htail⟩, by simp⟩
      | cons w' words => exact ⟨tail, htail, by simp [List.intercalate_cons_cons]⟩

/-- Whether a text has stray braces depends on its words. -/
theorem hasStrayBrace_of_blankWords_eq {s t : String}
    (h : blankWords s.toList = blankWords t.toList) : hasStrayBrace s = hasStrayBrace t := by
  have hwords : ∀ s : String, hasStrayBrace s =
      (braced ([' '].intercalate (blankWords s.toList))).any Part.isStrayBrace := by
    intro s
    obtain ⟨tail, htail, hsqueezed⟩ := exists_squeeze_eq s.toList
    rw [← (Encloses.of_back tail (braceless_of_isBlank htail) _).braced_eq, ← hsqueezed,
      any_braced, any_parts_squeeze, hasStrayBrace]
  rw [hwords, hwords, h]

/-! ## The word in a placeholder -/

/-- A name is a word. -/
theorem IsName.isSolid {name : List Char} (h : IsName name) : IsSolid name := by
  refine ⟨?_, fun c hc => Bool.eq_false_iff.mpr fun hblank => ?_⟩
  · rintro rfl
    exact h
  · have hchar := h.isNameChar c hc
    rw [isNameChar_of_isBlank hblank] at hchar
    cases hchar

/-- Between its braces a placeholder has one word, its name. -/
theorem blankWords_inside {cs name rest : List Char} (h : inner? cs = some (name, rest)) :
    ∃ inside, cs = inside ++ '}' :: rest ∧ '}' ∉ inside ∧ blankWords inside = [name] ∧
      Spells name ('{' :: inside ++ ['}']) := by
  obtain ⟨hname, before, after, hbefore, hafter, rfl⟩ := inner?_eq_some_iff.mp h
  have hspells : Spells name ('{' :: (before ++ (name ++ after)) ++ ['}']) :=
    ⟨hname, before, after, hbefore, hafter, by simp⟩
  refine ⟨before ++ (name ++ after), by simp, ?_, ?_, hspells⟩
  · exact ((braceless_of_isBlank hbefore).append
      (hname.braceless.append (braceless_of_isBlank hafter))).2
  · rw [blankWords_append_left hbefore, blankWords_solid_append hname.isSolid fun c hc =>
      hafter c (List.mem_of_mem_head? hc), blankWords_eq_nil hafter]

end Swimlane.Placeholder

namespace Swimlane.Story.Sentence

open Text Placeholder

/-- If a text without stray braces is cut in front of a keyword, and there is a brace which is not
    closed there, then the keyword is the name of a placeholder. -/
theorem exists_mem_names_of_unclosed {word : String} (hword : word ∈ keywords) {text : String}
    {front x rest : List Char} (htidy : Tidy text.toList) (htext : text.toList = front ++ x)
    (hfront : ¬ Closes front) (hx : behindWord? word x = some rest) :
    ∃ name ∈ names text, SameWord word name.toList := by
  simp only [Closes, not_forall] at hfront
  obtain ⟨before, behind, rfl, hopen⟩ := hfront
  have hcut : text.toList = before ++ '{' :: (behind ++ x) := by simp [htext]
  obtain ⟨⟨name, more⟩, hfound⟩ := exists_inner?_of_tidy htidy hcut
  obtain ⟨inside, hinside, hclosing, hwords, hspells⟩ := blankWords_inside hfound
  have hmem : String.ofList name ∈ names text := by
    refine mem_names_iff.mpr ⟨before.length, '{' :: inside ++ ['}'], more, ?_, ?_⟩
    · rwa [String.toList_ofList]
    · rw [hcut, List.drop_left, hinside]
      simp
  refine ⟨_, hmem, ?_⟩
  rw [String.toList_ofList]
  -- The closing brace stands behind the keyword, so the keyword is inside of the placeholder.
  obtain ⟨gap, w, gap', hne, hgap, hw, hne', hgap', rfl, _⟩ := (behindWord?_eq_some_iff hword).mp hx
  have hsolid := hw.isSolid hword
  have hplain : '}' ∉ behind ++ (gap ++ (w ++ gap')) := by
    simp only [List.mem_append, not_or]
    exact ⟨hopen, (braceless_of_isBlank hgap).2, (braceless_of_sameWord hword hw).2,
      (braceless_of_isBlank hgap').2⟩
  have hsplit : ∃ z, inside = (behind ++ (gap ++ (w ++ gap'))) ++ z := by
    have heq : (behind ++ (gap ++ (w ++ gap'))) ++ rest = inside ++ '}' :: more := by
      rw [← hinside]
      simp
    rcases List.append_eq_append_iff.mp heq with ⟨z, hz, _⟩ | ⟨z, hz, hrest⟩
    · exact ⟨z, hz⟩
    · cases z with
      | nil => exact ⟨[], by simpa using hz.symm⟩
      | cons c z =>
        rw [← (List.cons.inj hrest).1] at hz
        exact absurd (by rw [hz]; simp) hplain
  obtain ⟨z, rfl⟩ := hsplit
  have hhead := isBlank_of_mem_head?_append hne' hgap' z
  obtain ⟨d, gap, rfl⟩ := List.exists_cons_of_ne_nil hne
  obtain ⟨hd, hgap⟩ := List.forall_mem_cons.mp hgap
  have hcut : (behind ++ (d :: gap ++ (w ++ gap'))) ++ z =
      behind ++ d :: (gap ++ (w ++ (gap' ++ z))) := by simp
  rw [hcut, blankWords_append_cons hd, blankWords_append_left hgap,
    blankWords_solid_append hsolid hhead] at hwords
  rcases List.append_eq_singleton_iff.mp hwords with ⟨_, hname⟩ | ⟨_, hname⟩
  · rwa [(List.cons.inj hname).1] at hw
  · cases hname

end Swimlane.Story.Sentence
