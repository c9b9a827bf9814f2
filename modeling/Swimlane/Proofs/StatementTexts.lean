import Mathlib
import Swimlane.Proofs.Mentions
import Swimlane.Proofs.SourceLayout

/-!
# Where the texts of statements come from

The texts of a statement are cut out of its line, and a line is cut out of the story: white space
around it is left away, and tabs become spaces.  So a statement has no characters that its story
does not have, blanks apart, and none that ends a line.

## Key results

- `Text.mem_of_mem_lines`: the characters of a line
- `Sentence.mem_of_text?`, `Sentence.mem_of_send`: the characters of what a line says
- `mem_story_of_mem_parts`: the characters of the texts of a statement
-/

namespace Swimlane

/-! ## Lines -/

namespace Text

/-- A line is a piece of its text, and nothing in it ends a line. -/
theorem mem_of_mem_lines {cs line : List Char} (hline : line ∈ lines cs) {c : Char}
    (hc : c ∈ line) : c ∈ cs ∧ isLineBreak c = false := by
  fun_induction lines cs generalizing line with
  | case1 => exact absurd hline List.not_mem_nil
  | case2 rest ih =>
    rcases List.mem_cons.mp hline with rfl | hline
    · exact absurd hc List.not_mem_nil
    · obtain ⟨hmem, hbreak⟩ := ih hline hc
      exact ⟨List.mem_cons_of_mem _ (List.mem_cons_of_mem _ hmem), hbreak⟩
  | case3 d rest _ _ ih =>
    rcases List.mem_cons.mp hline with rfl | hline
    · exact absurd hc List.not_mem_nil
    · obtain ⟨hmem, hbreak⟩ := ih hline hc
      exact ⟨List.mem_cons_of_mem _ hmem, hbreak⟩
  | case4 d rest _ hd hlines ih =>
    rw [List.mem_singleton.mp hline, List.mem_singleton] at hc
    rw [hc]
    exact ⟨List.mem_cons_self, Bool.eq_false_iff.mpr hd⟩
  | case5 d rest _ hd first more hlines ih =>
    rw [hlines] at ih
    rcases List.mem_cons.mp hline with rfl | hline
    · rcases List.mem_cons.mp hc with rfl | hc
      · exact ⟨List.mem_cons_self, Bool.eq_false_iff.mpr hd⟩
      · obtain ⟨hmem, hbreak⟩ := ih List.mem_cons_self hc
        exact ⟨List.mem_cons_of_mem _ hmem, hbreak⟩
    · obtain ⟨hmem, hbreak⟩ := ih (List.mem_cons_of_mem _ hline) hc
      exact ⟨List.mem_cons_of_mem _ hmem, hbreak⟩

/-- Tabs become spaces. -/
theorem mem_of_mem_expandTabs {cs : List Char} {column : Nat} {c : Char}
    (h : c ∈ expandTabs column cs) : c = ' ' ∨ c ∈ cs := by
  induction cs generalizing column with
  | nil => exact absurd h List.not_mem_nil
  | cons d rest ih =>
    rw [expandTabs] at h
    split at h
    · rcases List.mem_append.mp h with h | h
      · exact Or.inl (List.eq_of_mem_replicate h)
      · exact (ih h).imp_right (List.mem_cons_of_mem d)
    · rcases List.mem_cons.mp h with rfl | h
      · exact Or.inr List.mem_cons_self
      · exact (ih h).imp_right (List.mem_cons_of_mem d)

end Text

namespace Story

open Text Placeholder Sentence

/-- A significant line is made of a raw line. -/
theorem exists_raw_of_mem_significant {raws : List (List Char)} {number : Nat} {l : Line}
    (h : l ∈ significant number raws) : ∃ raw ∈ raws, ∃ n, Line.ofRaw? n raw = some l := by
  fun_induction significant number raws with
  | case1 => exact absurd h List.not_mem_nil
  | case2 n raw rest line hline ih =>
    rcases List.mem_cons.mp h with rfl | h
    · exact ⟨raw, List.mem_cons_self, n, hline⟩
    · obtain ⟨raw', hraw, found⟩ := ih h
      exact ⟨raw', List.mem_cons_of_mem raw hraw, found⟩
  | case3 n raw rest _ ih =>
    obtain ⟨raw', hraw, found⟩ := ih h
    exact ⟨raw', List.mem_cons_of_mem raw hraw, found⟩

/-- The text of a significant line comes from the story. -/
theorem mem_story_of_mem_text {story : String} {l : Line} (hl : l ∈ lines story) {c : Char}
    (hc : c ∈ l.text.toList) (hblank : c ≠ ' ') : c ∈ story.toList ∧ isLineBreak c = false := by
  obtain ⟨raw, hraw, n, hline⟩ := exists_raw_of_mem_significant hl
  rw [Line.ofRaw?] at hline
  split at hline
  · cases hline
  · rw [← Option.some.inj hline, String.toList_ofList] at hc
    have hexpanded : c ∈ expandTabs 0 raw := mem_of_mem_trimBy hc
    exact mem_of_mem_lines hraw ((mem_of_mem_expandTabs hexpanded).resolve_left hblank)

/-! ## Sentences -/

/-- The subject of an `Ask` line and what is asked for are pieces of the line. -/
theorem Sentence.mem_of_ask? {cs : List Char} {subject rest : String}
    (h : ask? cs = some (.ask subject rest)) {c : Char}
    (hc : c ∈ subject.toList ∨ c ∈ rest.toList) : c ∈ cs := by
  simp only [ask?, Option.bind_eq_bind, Option.bind_eq_some_iff, Prod.exists] at h
  obtain ⟨behind, hkeyword, front, hblanks, who, more, hsubject, asked, hasked, h⟩ := h
  cases h
  obtain ⟨rfl, _⟩ := closes_of_subject? hsubject
  have hfront := (encloses_of_keyword? (by simp [keywords]) hkeyword).trans
    (encloses_of_blanks? hblanks)
  refine hfront.mem (List.mem_append.mpr ?_)
  rcases hc with hc | hc
  · exact Or.inl (by rwa [String.toList_ofList] at hc)
  · exact Or.inr ((encloses_trimmed (encloses_of_behindBlanks? hasked)).mem hc)

/-- The text of a sentence is cut out of its line; a blank joins the two texts of an `Ask` line. -/
theorem Sentence.mem_of_text? {line text : String} {s : Sentence} (h : ofText? line = some s)
    (ht : s.text? = some text) {c : Char} (hc : c ∈ text.toList) (hblank : c ≠ ' ') :
    c ∈ line.toList := by
  by_cases hask : ∃ subject rest, s = .ask subject rest
  · obtain ⟨subject, rest, rfl⟩ := hask
    cases ht
    refine mem_of_ask? (reader_of_ofText? h) ?_
    simpa [hblank] using hc
  · exact (encloses_of_ofText? h ht fun subject rest heq => hask ⟨subject, rest, heq⟩).mem hc

/-- The message and the recipient of a `Send` line are cut out of the line. -/
theorem Sentence.mem_of_send {line message recipient : String} {channel : Option String}
    (h : ofText? line = some (.send message recipient channel)) {c : Char}
    (hc : c ∈ message.toList ∨ c ∈ recipient.toList) : c ∈ line.toList := by
  obtain ⟨front, m, x, rest, _, htext, hto, rfl, rfl, _⟩ := Sentence.exists_of_ofText?_send h
  have htrimmed : ∀ cs : List Char, c ∈ (trimmed cs).toList → c ∈ cs := fun cs hc => by
    rw [trimmed, String.toList_ofList] at hc
    exact (encloses_trim cs).mem hc
  have hrest : c ∈ rest → c ∈ x := (encloses_of_behindWord? (by simp [keywords]) hto).mem
  rw [htext, List.mem_append, List.mem_append]
  right
  rcases hc with hc | hc
  · exact Or.inl (htrimmed m hc)
  · right
    refine hrest ?_
    have hrecipient := htrimmed _ hc
    rcases splitVia_cases rest with ⟨r, found, hsplit, ⟨_, y, hy, _⟩, _⟩ | ⟨hsplit, _⟩
    · rw [hsplit] at hrecipient
      rw [hy]
      exact List.mem_append_left y hrecipient
    · rwa [hsplit] at hrecipient

/-! ## Statements -/

/-- The texts of a statement are cut out of the lines that it stands on. -/
theorem Statement.Stands.exists_line {ls : List Line} {t : Statement} (h : t.Stands ls)
    {part : String} (hpart : part ∈ t.parts) {c : Char} (hc : c ∈ part.toList)
    (hblank : c ≠ ' ') : ∃ l ∈ ls, c ∈ l.text.toList := by
  cases t with
  | header source name =>
    obtain ⟨l, hl, _, hflow⟩ := h
    rw [List.mem_singleton.mp hpart] at hc
    exact ⟨l, hl, Sentence.mem_of_text? hflow.sentence rfl hc hblank⟩
  | conditional source branches otherwise =>
    obtain ⟨heads, hheads, hopens⟩ := h
    obtain ⟨b, hb, rfl⟩ := List.mem_map.mp hpart
    obtain ⟨l, hl, sentence, hsentence, hbranch, _⟩ := exists_of_forall₂ hopens.forall₂ hb
    exact ⟨l, hheads.subset hl, Sentence.mem_of_text? hsentence hbranch.text?_eq hc hblank⟩
  | ask source subject prompt =>
    obtain ⟨l, hl, hsays, _⟩ := h
    rw [List.mem_singleton.mp hpart] at hc
    cases hsays with
    | ask hsentence => exact ⟨l, hl, Sentence.mem_of_text? hsentence rfl hc hblank⟩
  | perform source action =>
    obtain ⟨l, hl, hsays, _⟩ := h
    rw [List.mem_singleton.mp hpart] at hc
    cases hsays with
    | perform hsentence => exact ⟨l, hl, Sentence.mem_of_text? hsentence rfl hc hblank⟩
  | stop source reason =>
    obtain ⟨l, hl, hsays, _⟩ := h
    rw [List.mem_singleton.mp hpart] at hc
    cases hsays with
    | stop hsentence => exact ⟨l, hl, Sentence.mem_of_text? hsentence rfl hc hblank⟩
  | send source message recipient channel =>
    obtain ⟨l, hl, hsays, _⟩ := h
    have hsaid : c ∈ message.toList ∨ c ∈ recipient.toList := by
      rcases List.mem_cons.mp hpart with rfl | hpart
      · exact Or.inl hc
      · rw [List.mem_singleton.mp hpart] at hc
        exact Or.inr hc
    cases hsays with
    | send hsentence => exact ⟨l, hl, Sentence.mem_of_send hsentence hsaid⟩
  | foreign source kind => exact absurd hpart List.not_mem_nil

/-- The texts of the statements of a story have no characters but blanks and those of its lines. -/
theorem mem_story_of_mem_parts {story : String} {statements : List Statement}
    (h : parse story = .ok statements) {t : Statement} (ht : t ∈ preorderAll statements)
    {part : String} (hpart : part ∈ t.parts) {c : Char} (hc : c ∈ part.toList) (hblank : c ≠ ' ') :
    c ∈ story.toList ∧ isLineBreak c = false := by
  obtain ⟨l, hl, hmem⟩ := (stands_of_parse h ht).exists_line hpart hc hblank
  exact mem_story_of_mem_text hl hmem hblank

end Story

end Swimlane
