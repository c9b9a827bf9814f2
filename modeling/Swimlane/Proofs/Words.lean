import Swimlane.Proofs.Keywords
import Swimlane.Proofs.Placeholders
import Swimlane.Story.Sentence

/-!
# Words and the white space between them

White space divides a text into words.  Where two words of a text stand, the text can be cut, and
the words of the pieces are those in front of the cut and those behind it.

## Key results

- `blankWords_append_cons`: the words of a text with a blank in it
- `exists_of_blankWords_eq`: where a word of a text stands
- `behindWord?_eq_some_iff`: a keyword between white space, with a text behind it
-/

namespace Swimlane.Text

/-! ## The words of a text -/

/-- A word: it is not empty and has no white space. -/
def IsSolid (w : List Char) : Prop := w ≠ [] ∧ ∀ c ∈ w, isBlank c = false

/-- A text is divided at its white space. -/
theorem blankWords_append_cons {d : Char} (hd : isBlank d = true) (front rest : List Char) :
    blankWords (front ++ d :: rest) = blankWords front ++ blankWords rest :=
  pieces_append_cons hd front rest

theorem blankWords_cons {d : Char} (hd : isBlank d = true) (rest : List Char) :
    blankWords (d :: rest) = blankWords rest :=
  blankWords_append_cons hd [] rest

/-- White space in front of a text belongs to no word. -/
theorem blankWords_append_left {gap : List Char} (h : ∀ c ∈ gap, isBlank c = true)
    (rest : List Char) : blankWords (gap ++ rest) = blankWords rest := by
  induction gap with
  | nil => rfl
  | cons d gap ih =>
    obtain ⟨hd, hgap⟩ := List.forall_mem_cons.mp h
    rw [List.cons_append, blankWords_cons hd, ih hgap]

theorem blankWords_eq_nil {gap : List Char} (h : ∀ c ∈ gap, isBlank c = true) :
    blankWords gap = [] := by
  rw [← List.append_nil gap, blankWords_append_left h]
  rfl

theorem isBlank_of_mem_head?_append {gap : List Char} (hne : gap ≠ [])
    (hgap : ∀ c ∈ gap, isBlank c = true) (rest : List Char) :
    ∀ c ∈ (gap ++ rest).head?, isBlank c = true := by
  intro c hc
  rw [List.head?_append_of_ne_nil _ hne] at hc
  exact hgap c (List.mem_of_mem_head? hc)

/-- A word at the front of a text, if the text goes on with white space or ends. -/
theorem blankWords_solid_append {w rest : List Char} (hw : IsSolid w)
    (hrest : ∀ c ∈ rest.head?, isBlank c = true) :
    blankWords (w ++ rest) = w :: blankWords rest := by
  have hword : blankWords w = [w] := pieces_eq_singleton hw.1 hw.2
  cases rest with
  | nil => rw [List.append_nil, hword]; rfl
  | cons d rest =>
    have hd := hrest d rfl
    rw [blankWords_append_cons hd, hword, blankWords_cons hd]
    rfl

/-- White space in front of a text and behind it does not matter. -/
theorem blankWords_trim (cs : List Char) : blankWords (trim cs) = blankWords cs := by
  have hend : ∀ cs : List Char, blankWords (cs.reverse.dropWhile isBlank).reverse =
      blankWords cs := by
    intro cs
    -- The end of a text is reached from behind, so the induction goes that way too.
    induction cs using List.reverseRecOn with
    | nil => rfl
    | append_singleton cs d ih =>
      rw [List.reverse_append, List.reverse_singleton, List.singleton_append]
      by_cases hd : isBlank d = true
      · rw [List.dropWhile_cons_of_pos hd, ih, blankWords_append_cons hd]
        exact (List.append_nil _).symm
      · rw [List.dropWhile_cons_of_neg hd]
        simp
  have hgap : ∀ c ∈ cs.takeWhile isBlank, isBlank c = true := fun c hc => List.mem_takeWhile_imp hc
  have hfront := blankWords_append_left hgap (cs.dropWhile isBlank)
  rw [List.takeWhile_append_dropWhile] at hfront
  rw [trim, trimBy, hend, hfront]

/-! ## Where words stand -/

/-- Dropping stops at the first character that is not in the class. -/
theorem eq_false_of_mem_head?_dropWhile {p : Char → Bool} {cs : List Char} {c : Char}
    (h : c ∈ (cs.dropWhile p).head?) : p c = false := by
  have hnot := List.head?_dropWhile_not p cs
  rw [h] at hnot
  simpa using hnot

/-- White space in front of a text that does not begin with more of it. -/
theorem span_isBlank {gap rest : List Char} (hgap : ∀ c ∈ gap, isBlank c = true)
    (hrest : ∀ c ∈ rest.head?, isBlank c = false) :
    (gap ++ rest).takeWhile isBlank = gap ∧ (gap ++ rest).dropWhile isBlank = rest := by
  have hstop : rest.takeWhile isBlank = [] ∧ rest.dropWhile isBlank = rest := by
    cases rest with
    | nil => exact ⟨rfl, rfl⟩
    | cons c rest => simp [hrest c rfl]
  rw [List.takeWhile_append_of_pos hgap, List.dropWhile_append_of_pos hgap, hstop.1, hstop.2,
    List.append_nil]
  exact ⟨rfl, rfl⟩

theorem mem_of_mem_trimBy {p : Char → Bool} {cs : List Char} {c : Char} (h : c ∈ trimBy p cs) :
    c ∈ cs := by
  rw [trimBy, List.mem_reverse] at h
  have hdrop := (List.dropWhile_sublist p).subset h
  exact (List.dropWhile_sublist p).subset (List.mem_reverse.mp hdrop)

/-- A text is its trimmed text between white space. -/
theorem exists_eq_append_trim (cs : List Char) : ∃ front back, (∀ c ∈ front, isBlank c = true) ∧
    (∀ c ∈ back, isBlank c = true) ∧ cs.dropWhile isBlank = trim cs ++ back ∧
      cs = front ++ (trim cs ++ back) := by
  have hback : cs.dropWhile isBlank =
      trim cs ++ ((cs.dropWhile isBlank).reverse.takeWhile isBlank).reverse := by
    rw [trim, trimBy, ← List.reverse_append, List.takeWhile_append_dropWhile, List.reverse_reverse]
  refine ⟨cs.takeWhile isBlank, _, fun c hc => List.mem_takeWhile_imp hc,
    fun c hc => List.mem_takeWhile_imp (List.mem_reverse.mp hc), hback, ?_⟩
  rw [← hback, List.takeWhile_append_dropWhile]

/-- A trimmed text begins with no white space. -/
theorem eq_false_of_mem_head?_trim {cs : List Char} {c : Char} (h : c ∈ (trim cs).head?) :
    isBlank c = false := by
  obtain ⟨_, back, _, _, hdrop, _⟩ := exists_eq_append_trim cs
  have hmem : c ∈ (cs.dropWhile isBlank).head? := by
    rw [hdrop, List.head?_append, Option.mem_def.mp h]
    rfl
  exact eq_false_of_mem_head?_dropWhile hmem

/-- A trimmed text ends with no white space. -/
theorem eq_false_of_mem_getLast?_trim {cs : List Char} {c : Char} (h : c ∈ (trim cs).getLast?) :
    isBlank c = false := by
  rw [trim, trimBy, List.getLast?_reverse] at h
  exact eq_false_of_mem_head?_dropWhile h

/-- Nothing is trimmed off a text that begins and ends with no white space. -/
theorem trim_eq_self {cs : List Char} (hhead : ∀ c ∈ cs.head?, isBlank c = false)
    (hlast : ∀ c ∈ cs.getLast?, isBlank c = false) : trim cs = cs := by
  have hstop : ∀ cs : List Char, (∀ c ∈ cs.head?, isBlank c = false) →
      cs.dropWhile isBlank = cs := by
    intro cs h
    have hspan := span_isBlank (fun c hc => absurd hc List.not_mem_nil) h
    exact hspan.2
  rw [trim, trimBy, hstop cs hhead, hstop cs.reverse (by rwa [List.head?_reverse]),
    List.reverse_reverse]

/-- The first word of a text stands behind its white space, and in front of more of it. -/
theorem exists_of_blankWords_eq_cons {cs w : List Char} {words : List (List Char)}
    (h : blankWords cs = w :: words) :
    ∃ gap rest, cs = gap ++ (w ++ rest) ∧ (∀ c ∈ gap, isBlank c = true) ∧ IsSolid w ∧
      (∀ c ∈ rest.head?, isBlank c = true) ∧ blankWords rest = words := by
  have hgap : ∀ c ∈ cs.takeWhile isBlank, isBlank c = true := fun c hc => List.mem_takeWhile_imp hc
  have hcs := List.takeWhile_append_dropWhile (p := isBlank) (l := cs)
  have hbehind := List.takeWhile_append_dropWhile (p := (!isBlank ·)) (l := cs.dropWhile isBlank)
  have hsolid : IsSolid ((cs.dropWhile isBlank).takeWhile (!isBlank ·)) := by
    refine ⟨fun hnil => ?_, fun c hc => by simpa using List.mem_takeWhile_imp hc⟩
    cases hdrop : cs.dropWhile isBlank with
    | nil =>
      rw [hdrop, List.append_nil] at hcs
      rw [← hcs, blankWords_eq_nil hgap] at h
      cases h
    | cons c rest =>
      have hc : isBlank c = false := eq_false_of_mem_head?_dropWhile (by rw [hdrop]; rfl)
      rw [hdrop, List.takeWhile_cons_of_pos (by simp [hc])] at hnil
      cases hnil
  have hrest : ∀ c ∈ ((cs.dropWhile isBlank).dropWhile (!isBlank ·)).head?, isBlank c = true :=
    fun c hc => by simpa using eq_false_of_mem_head?_dropWhile hc
  rw [← hcs, blankWords_append_left hgap, ← hbehind, blankWords_solid_append hsolid hrest] at h
  obtain ⟨rfl, rfl⟩ := List.cons.inj h
  exact ⟨_, _, by rw [hbehind, hcs], hgap, hsolid, hrest, rfl⟩

/-- If a text begins with white space, there is some in front of its first word. -/
theorem IsSolid.ne_nil_of_head? {gap w rest : List Char} (hw : IsSolid w)
    (h : ∀ c ∈ (gap ++ (w ++ rest)).head?, isBlank c = true) : gap ≠ [] := by
  rintro rfl
  obtain ⟨c, w', rfl⟩ := List.exists_cons_of_ne_nil hw.1
  have hc := h c rfl
  rw [hw.2 c List.mem_cons_self] at hc
  cases hc

/-- Where a word of a text stands: it has the words in front of it and those behind it, and white
    space in front of it unless the text begins with it. -/
theorem exists_of_blankWords_eq {cs w : List Char} {front behind : List (List Char)}
    (h : blankWords cs = front ++ w :: behind) :
    ∃ before gap rest, cs = before ++ (gap ++ (w ++ rest)) ∧ blankWords before = front ∧
      (∀ c ∈ gap, isBlank c = true) ∧
      ((front ≠ [] ∨ ∀ c ∈ cs.head?, isBlank c = true) → gap ≠ []) ∧ IsSolid w ∧
      (∀ c ∈ rest.head?, isBlank c = true) ∧ blankWords rest = behind := by
  -- By induction on the words in front, which are taken off the text one by one.
  induction front generalizing cs with
  | nil =>
    obtain ⟨gap, rest, rfl, hgap, hw, hrest, hbehind⟩ := exists_of_blankWords_eq_cons h
    refine ⟨[], gap, rest, rfl, rfl, hgap, ?_, hw, hrest, hbehind⟩
    rintro (hne | hblank)
    · exact absurd rfl hne
    · exact hw.ne_nil_of_head? hblank
  | cons first front ih =>
    obtain ⟨gap₀, rest₀, rfl, hgap₀, hfirst, hrest₀, hwords⟩ := exists_of_blankWords_eq_cons h
    obtain ⟨before, gap, rest, rfl, hbefore, hgap, hne, hw, hrest, hbehind⟩ := ih hwords
    refine ⟨gap₀ ++ (first ++ before), gap, rest, by simp, ?_, hgap, fun _ => hne (Or.inr hrest₀),
      hw, hrest, hbehind⟩
    -- What follows the first word begins with white space, and so does its front.
    have hhead : ∀ c ∈ before.head?, isBlank c = true := by
      intro c hc
      obtain ⟨more, rfl⟩ := List.head?_eq_some_iff.mp hc
      exact hrest₀ c rfl
    rw [blankWords_append_left hgap₀, blankWords_solid_append hfirst hhead, hbefore]

/-- A text has at least as many words as its front. -/
theorem length_blankWords_le (front rest : List Char) :
    (blankWords front).length ≤ (blankWords (front ++ rest)).length := by
  have hstarts : ∀ behind, starts isBlank behind front ≤ starts isBlank behind (front ++ rest) := by
    induction front with
    | nil => exact fun _ => Nat.zero_le _
    | cons c front ih =>
      intro behind
      rw [List.cons_append, starts, starts]
      split
      · exact ih true
      · exact Nat.add_le_add_left (ih false) _
  rw [blankWords, blankWords, length_pieces, length_pieces]
  exact hstarts true

/-- A text that begins with no white space has words, and so has each of its fronts. -/
theorem blankWords_ne_nil {cs : List Char} (hne : cs ≠ [])
    (h : ∀ c ∈ cs.head?, isBlank c = false) : blankWords cs ≠ [] := by
  obtain ⟨c, rest, rfl⟩ := List.exists_cons_of_ne_nil hne
  intro hnil
  have hlength : starts isBlank true (c :: rest) = 0 := by
    rw [← length_pieces, ← blankWords, hnil]; rfl
  rw [starts, h c rfl] at hlength
  simp at hlength

/-- A text without words is white space. -/
theorem isBlank_of_blankWords_eq_nil {cs : List Char} (h : blankWords cs = []) :
    ∀ c ∈ cs, isBlank c = true := by
  have hgap : ∀ c ∈ cs.takeWhile isBlank, isBlank c = true := fun c hc => List.mem_takeWhile_imp hc
  have hcs := List.takeWhile_append_dropWhile (p := isBlank) (l := cs)
  by_cases hdrop : cs.dropWhile isBlank = []
  · rw [hdrop, List.append_nil] at hcs
    rwa [hcs] at hgap
  · refine absurd ?_ (blankWords_ne_nil hdrop fun c hc => eq_false_of_mem_head?_dropWhile hc)
    rw [← blankWords_append_left hgap, hcs, h]

/-! ## Keywords between white space -/

/-- A word is the given one, in any letter case. -/
def SameWord (word : String) (w : List Char) : Prop :=
  List.Forall₂ (fun k c => sameLetter k c = true) word.toList w

/-- The keywords of stories. -/
def keywords : List String :=
  ["flow", "ask", "do", "send", "to", "via", "stop", "if", "otherwise", "else"]

/-- Keywords are made of small letters. -/
theorem isLower_of_mem_keywords {word : String} (h : word ∈ keywords) :
    word.toList ≠ [] ∧ ∀ k ∈ word.toList, k.isLower = true := by
  have hall : (keywords.all fun word => !word.toList.isEmpty && word.toList.all Char.isLower) =
      true := by decide +kernel
  have hword := List.all_eq_true.mp hall word h
  rw [Bool.and_eq_true, List.all_eq_true] at hword
  exact ⟨by simpa using hword.1, hword.2⟩

/-- What a keyword is written with are word characters. -/
theorem SameWord.isWordChar {word : String} {w : List Char} (h : SameWord word w)
    (hword : word ∈ keywords) : ∀ c ∈ w, isWordChar c = true :=
  isWordChar_of_forall₂ h (isLower_of_mem_keywords hword).2

/-- A keyword, in any letter case, is a word. -/
theorem SameWord.isSolid {word : String} {w : List Char} (h : SameWord word w)
    (hword : word ∈ keywords) : IsSolid w := by
  refine ⟨?_, fun c hc => ?_⟩
  · rintro rfl
    exact (isLower_of_mem_keywords hword).1 (List.forall₂_nil_right_iff.mp h)
  · refine Bool.eq_false_iff.mpr fun hblank => ?_
    have hchar := h.isWordChar hword c hc
    rw [isWordChar_of_isBlank hblank] at hchar
    cases hchar

/-- What white space is followed by. -/
theorem blanks?_eq_some_iff {cs rest : List Char} : blanks? cs = some rest ↔
    ∃ gap, gap ≠ [] ∧ (∀ c ∈ gap, isBlank c = true) ∧ cs = gap ++ rest ∧
      ∀ c ∈ rest.head?, isBlank c = false := by
  constructor
  · intro h
    cases cs with
    | nil => cases h
    | cons d cs =>
      rw [blanks?] at h
      split at h
      · rename_i hd
        cases h
        refine ⟨d :: cs.takeWhile isBlank, List.cons_ne_nil _ _, List.forall_mem_cons.mpr
          ⟨hd, fun c hc => List.mem_takeWhile_imp hc⟩, ?_, fun c hc => ?_⟩
        · rw [dropBlank, List.cons_append, List.takeWhile_append_dropWhile]
        · exact eq_false_of_mem_head?_dropWhile hc
      · cases h
  · rintro ⟨gap, hne, hgap, rfl, hrest⟩
    obtain ⟨d, gap, rfl⟩ := List.exists_cons_of_ne_nil hne
    obtain ⟨hd, hgap⟩ := List.forall_mem_cons.mp hgap
    rw [List.cons_append, blanks?, if_pos hd, dropBlank, (span_isBlank hgap hrest).2]

end Swimlane.Text

namespace Swimlane.Story.Sentence

open Text

theorem nonempty?_eq_some_iff {cs rest : List Char} :
    nonempty? cs = some rest ↔ cs = rest ∧ rest ≠ [] := by
  rw [nonempty?]
  cases cs with
  | nil => simp
  | cons c cs =>
    simp only [List.isEmpty_cons, Bool.false_eq_true, ↓reduceIte, Option.some.injEq]
    exact ⟨fun h => ⟨h, h ▸ List.cons_ne_nil _ _⟩, And.left⟩

theorem behindBlanks?_eq_some_iff {cs rest : List Char} : behindBlanks? cs = some rest ↔
    ∃ gap, gap ≠ [] ∧ (∀ c ∈ gap, isBlank c = true) ∧ cs = gap ++ rest ∧ rest ≠ [] ∧
      ∀ c ∈ rest.head?, isBlank c = false := by
  rw [behindBlanks?, Option.bind_eq_bind, Option.bind_eq_some_iff]
  constructor
  · rintro ⟨found, hfound, hrest⟩
    obtain ⟨rfl, hne⟩ := nonempty?_eq_some_iff.mp hrest
    obtain ⟨gap, hgap, hblank, rfl, hhead⟩ := blanks?_eq_some_iff.mp hfound
    exact ⟨gap, hgap, hblank, rfl, hne, hhead⟩
  · rintro ⟨gap, hgap, hblank, rfl, hne, hhead⟩
    exact ⟨rest, blanks?_eq_some_iff.mpr ⟨gap, hgap, hblank, rfl, hhead⟩,
      nonempty?_eq_some_iff.mpr ⟨rfl, hne⟩⟩

/-- What follows a keyword between white space. -/
theorem behindWord?_eq_some_iff {word : String} (hword : word ∈ keywords) {cs rest : List Char} :
    behindWord? word cs = some rest ↔
    ∃ gap w gap', gap ≠ [] ∧ (∀ c ∈ gap, isBlank c = true) ∧ SameWord word w ∧ gap' ≠ [] ∧
      (∀ c ∈ gap', isBlank c = true) ∧ cs = gap ++ (w ++ (gap' ++ rest)) ∧ rest ≠ [] ∧
      ∀ c ∈ rest.head?, isBlank c = false := by
  simp only [behindWord?, Option.bind_eq_bind, Option.bind_eq_some_iff]
  constructor
  · rintro ⟨front, hfront, behind, hbehind, hrest⟩
    obtain ⟨gap, hgap, hblank, rfl, _⟩ := blanks?_eq_some_iff.mp hfront
    obtain ⟨w, rfl, hw⟩ := keyword?_eq_some_iff.mp hbehind
    obtain ⟨gap', hgap', hblank', rfl, hrest, hhead⟩ := behindBlanks?_eq_some_iff.mp hrest
    exact ⟨gap, w, gap', hgap, hblank, hw, hgap', hblank', rfl, hrest, hhead⟩
  · rintro ⟨gap, w, gap', hgap, hblank, hw, hgap', hblank', rfl, hrest, hhead⟩
    have hsolid := hw.isSolid hword
    refine ⟨_, blanks?_eq_some_iff.mpr ⟨gap, hgap, hblank, rfl, ?_⟩, _,
      keyword?_eq_some_iff.mpr ⟨w, rfl, hw⟩,
      behindBlanks?_eq_some_iff.mpr ⟨gap', hgap', hblank', rfl, hrest, hhead⟩⟩
    obtain ⟨d, w', rfl⟩ := List.exists_cons_of_ne_nil hsolid.1
    intro c hc
    cases hc
    exact hsolid.2 _ List.mem_cons_self

/-- A keyword between white space is the first word of its text, and not the last. -/
theorem blankWords_of_behindWord? {word : String} (hword : word ∈ keywords) {cs rest : List Char}
    (h : behindWord? word cs = some rest) :
    ∃ d more w, cs = d :: more ∧ isBlank d = true ∧ SameWord word w ∧
      blankWords cs = w :: blankWords rest ∧ blankWords rest ≠ [] := by
  obtain ⟨gap, w, gap', hne, hgap, hw, hne', hgap', rfl, hrest, hhead⟩ :=
    (behindWord?_eq_some_iff hword).mp h
  have hbehind := isBlank_of_mem_head?_append hne' hgap' rest
  obtain ⟨d, gap, rfl⟩ := List.exists_cons_of_ne_nil hne
  refine ⟨d, _, w, rfl, hgap d List.mem_cons_self, hw, ?_, blankWords_ne_nil hrest hhead⟩
  rw [blankWords_append_left hgap, blankWords_solid_append (hw.isSolid hword) hbehind,
    blankWords_append_left hgap']

/-- A keyword that is the first word of a text, and not the last, stands between white space if
    the text begins with some. -/
theorem exists_behindWord?_eq_some {word : String} (hword : word ∈ keywords) {cs w : List Char}
    {behind : List (List Char)} (hcs : ∀ c ∈ cs.head?, isBlank c = true) (hw : SameWord word w)
    (hwords : blankWords cs = w :: behind) (hbehind : behind ≠ []) :
    ∃ rest, behindWord? word cs = some rest ∧ blankWords rest = behind := by
  obtain ⟨gap, rest, rfl, hgap, hsolid, hrest, hwords'⟩ := exists_of_blankWords_eq_cons hwords
  have hne : gap ≠ [] := hsolid.ne_nil_of_head? hcs
  have hgap' : ∀ c ∈ rest.takeWhile isBlank, isBlank c = true :=
    fun c hc => List.mem_takeWhile_imp hc
  have hsplit := List.takeWhile_append_dropWhile (p := isBlank) (l := rest)
  have hdropped : blankWords (rest.dropWhile isBlank) = behind := by
    rw [← blankWords_append_left hgap', hsplit, hwords']
  have hbody : rest.dropWhile isBlank ≠ [] := by
    intro hnil
    rw [hnil] at hdropped
    exact hbehind hdropped.symm
  have hne' : rest.takeWhile isBlank ≠ [] := by
    obtain ⟨c, more, rfl⟩ : ∃ c more, rest = c :: more := by
      cases rest with
      | nil => exact absurd rfl hbody
      | cons c more => exact ⟨c, more, rfl⟩
    simp [hrest c rfl]
  refine ⟨rest.dropWhile isBlank, ?_, hdropped⟩
  exact (behindWord?_eq_some_iff hword).mpr ⟨gap, w, _, hne, hgap, hw, hne', hgap',
    by rw [hsplit], hbody, fun c hc => eq_false_of_mem_head?_dropWhile hc⟩

end Swimlane.Story.Sentence
