import Swimlane.Proofs.Braces
import Swimlane.Proofs.Words

/-!
# What a line is made of

The texts of a sentence are cut out of a line: keywords, colons and white space are left away, and
none of these has braces.  So a sentence has the placeholders and the stray braces of its line,
unless it is a `Send` line, which is divided at the words `to` and `via` even where they are inside
of braces.

## Key results

- `reader_of_ofText?`: what a line says was read by the reader for it
- `encloses_of_ofText?`: the text of a line is a piece of it
- `braced_of_ofText?`: the braces of a line are those of its text
-/

namespace Swimlane.Story.Sentence

open Text Placeholder

/-! ## Readers -/

/-- The reader of the lines that say a sentence of the same form. -/
def reader : Sentence → List Char → Option Sentence
  | .flow _ => flow?
  | .ask .. => ask?
  | .perform _ => perform?
  | .send .. => send?
  | .stop _ => stop?
  | .condition _ => condition?
  | .otherwise _ => otherwise?

/-- The readers of lines, in the order in which they are tried. -/
def readers : List (List Char → Option Sentence) :=
  [flow?, ask?, perform?, send?, stop?, condition?, otherwise?]

/-- Every reader reads sentences of one form. -/
theorem reader_eq {read : List Char → Option Sentence} (h : read ∈ readers) {cs : List Char}
    {s : Sentence} (hs : read cs = some s) : s.reader = read := by
  simp only [readers, List.mem_cons, List.not_mem_nil, or_false] at h
  rcases h with rfl | rfl | rfl | rfl | rfl | rfl | rfl
  · simp only [flow?, Option.bind_eq_bind, Option.bind_eq_some_iff] at hs
    obtain ⟨_, _, hs⟩ := hs
    split at hs <;> cases hs
    rfl
  · simp only [ask?, Option.bind_eq_bind, Option.bind_eq_some_iff, Prod.exists] at hs
    obtain ⟨_, _, _, _, _, _, _, _, _, hs⟩ := hs
    cases hs
    rfl
  · simp only [perform?, Option.bind_eq_bind, Option.bind_eq_some_iff] at hs
    obtain ⟨_, _, _, _, hs⟩ := hs
    cases hs
    rfl
  · simp only [send?, Option.bind_eq_bind, Option.bind_eq_some_iff] at hs
    obtain ⟨_, _, _, _, hs⟩ := hs
    cases hs
    rfl
  · simp only [stop?, Option.bind_eq_bind, Option.bind_eq_some_iff] at hs
    obtain ⟨_, _, hs⟩ := hs
    split at hs
    · cases hs
    · split at hs <;> cases hs <;> rfl
  · simp only [condition?, Option.bind_eq_bind, Option.bind_eq_some_iff] at hs
    obtain ⟨_, _, _, _, hs⟩ := hs
    cases hs
    rfl
  · simp only [otherwise?, Option.bind_eq_bind, Option.bind_eq_some_iff] at hs
    obtain ⟨_, _, hs⟩ := hs
    split at hs
    · cases hs
      rfl
    · split at hs <;> cases hs
      rfl

/-- The readers are tried one after the other. -/
theorem ofText?_eq_findSome? (text : String) :
    ofText? text = readers.findSome? fun read => read text.toList := by
  simp only [ofText?, readers, List.findSome?_cons, List.findSome?_nil]
  cases flow? text.toList <;> cases ask? text.toList <;> cases perform? text.toList <;>
    cases send? text.toList <;> cases stop? text.toList <;> cases condition? text.toList <;>
    cases otherwise? text.toList <;> rfl

/-- What a line says was read by the reader for it. -/
theorem reader_of_ofText? {text : String} {s : Sentence} (h : ofText? text = some s) :
    s.reader text.toList = some s := by
  rw [ofText?_eq_findSome?] at h
  obtain ⟨read, hread, hs⟩ := List.exists_of_findSome?_eq_some h
  rw [reader_eq hread hs, hs]

/-! ## What is left away -/

theorem encloses_of_isBlank {gap : List Char} (h : ∀ c ∈ gap, isBlank c = true)
    (rest : List Char) : Encloses (gap ++ rest) rest :=
  .of_front gap (braceless_of_isBlank h) rest

/-- Keywords have no braces. -/
theorem braceless_of_sameWord {word : String} (hword : word ∈ keywords) {w : List Char}
    (h : SameWord word w) : Braceless w :=
  braceless_of_forall (by decide) (by decide) (h.isWordChar hword)

theorem encloses_of_keyword? {word : String} (hword : word ∈ keywords) {cs rest : List Char}
    (h : keyword? word.toList cs = some rest) : Encloses cs rest := by
  obtain ⟨w, rfl, hw⟩ := keyword?_eq_some_iff.mp h
  exact .of_front w (braceless_of_sameWord hword hw) rest

theorem encloses_of_blanks? {cs rest : List Char} (h : blanks? cs = some rest) :
    Encloses cs rest := by
  obtain ⟨gap, _, hgap, rfl, _⟩ := blanks?_eq_some_iff.mp h
  exact encloses_of_isBlank hgap rest

theorem encloses_of_behindBlanks? {cs rest : List Char} (h : behindBlanks? cs = some rest) :
    Encloses cs rest := by
  obtain ⟨gap, _, hgap, rfl, _⟩ := behindBlanks?_eq_some_iff.mp h
  exact encloses_of_isBlank hgap rest

theorem encloses_of_behindWord? {word : String} (hword : word ∈ keywords) {cs rest : List Char}
    (h : behindWord? word cs = some rest) : Encloses cs rest := by
  obtain ⟨gap, w, gap', _, hgap, hw, _, hgap', rfl, _⟩ := (behindWord?_eq_some_iff hword).mp h
  exact (encloses_of_isBlank hgap _).trans
    ((Encloses.of_front w (braceless_of_sameWord hword hw) _).trans
      (encloses_of_isBlank hgap' rest))

theorem encloses_dropBlank (cs : List Char) : Encloses cs (dropBlank cs) := by
  have hgap : ∀ c ∈ cs.takeWhile isBlank, isBlank c = true := fun c hc => List.mem_takeWhile_imp hc
  have hfront := encloses_of_isBlank hgap (dropBlank cs)
  rwa [dropBlank, List.takeWhile_append_dropWhile] at hfront

theorem encloses_colon (cs : List Char) : Encloses (':' :: cs) cs :=
  .of_front [':'] ⟨by decide, by decide⟩ cs

theorem encloses_of_behindColon? {cs rest : List Char} (h : behindColon? cs = some rest) :
    Encloses cs rest := by
  rw [behindColon?] at h
  split at h
  · rename_i more heq
    obtain ⟨rfl, _⟩ := nonempty?_eq_some_iff.mp h
    have hdrop := encloses_dropBlank cs
    rw [heq] at hdrop
    exact hdrop.trans ((encloses_colon more).trans (encloses_dropBlank more))
  · cases h

theorem encloses_trim (cs : List Char) : Encloses cs (trim cs) := by
  obtain ⟨front, back, hfront, hback, _, hcs⟩ := exists_eq_append_trim cs
  exact ⟨front, back, braceless_of_isBlank hfront, braceless_of_isBlank hback, hcs⟩

theorem encloses_trimmed {cs rest : List Char} (h : Encloses cs rest) :
    Encloses cs (trimmed rest).toList := by
  rw [trimmed, String.toList_ofList]
  exact h.trans (encloses_trim rest)

theorem braced_trimmed (cs : List Char) : braced (trimmed cs).toList = braced cs := by
  rw [trimmed, String.toList_ofList, (encloses_trim cs).braced_eq]

/-- The end of a condition has no braces. -/
theorem encloses_takeCondition (cs : List Char) : Encloses cs (takeCondition cs) := by
  -- A condition ends with white space and perhaps a colon.
  have hend : ∀ cs, isConditionEnd cs = true → Braceless cs := by
    intro cs h
    have hempty : Encloses cs [] := by
      refine (encloses_dropBlank cs).trans ?_
      rw [isConditionEnd] at h
      split at h
      · rename_i heq; rw [heq]; exact .of_front [] braceless_nil []
      · rename_i heq; rw [heq]; exact encloses_colon []
      · cases h
    obtain ⟨front, back, hfront, hback, rfl⟩ := hempty
    exact hfront.append hback
  have hsplit : ∃ back, Braceless back ∧ cs = takeCondition cs ++ back := by
    induction cs with
    | nil => exact ⟨[], braceless_nil, rfl⟩
    | cons c cs ih =>
      rw [takeCondition]
      split
      · rename_i h; exact ⟨cs, hend cs h, rfl⟩
      · obtain ⟨back, hback, hcs⟩ := ih
        refine ⟨back, hback, ?_⟩
        rw [List.cons_append, ← hcs]
  obtain ⟨back, hback, hcs⟩ := hsplit
  have h := Encloses.of_back back hback (takeCondition cs)
  rwa [← hcs] at h

/-! ## The text of a sentence -/

/-- The text of a sentence that is no `Send`; a plain `Otherwise` has none. -/
def text? : Sentence → Option String
  | .flow name => some name
  | .ask subject rest => some (subject ++ " " ++ rest)
  | .perform action => some action
  | .send .. => none
  | .stop reason => some reason
  | .condition text => some text
  | .otherwise text => text

/-- Behind a subject no placeholder is open. -/
theorem closes_of_subject? {cs subject rest : List Char} (h : subject? cs = some (subject, rest)) :
    cs = subject ++ rest ∧ Closes subject := by
  -- A subject in braces ends with the closing one; any other subject has no braces.
  unfold subject? at h
  split at h
  · rename_i cs
    split at h
    · cases h
    · rename_i hdrop _
      cases h
      have hsplit := List.takeWhile_append_dropWhile (p := isSubjectChar) (l := cs)
      rw [hdrop] at hsplit
      refine ⟨?_, closes_append_closing ('{' :: _)⟩
      nth_rewrite 1 [← hsplit]
      simp
    · cases h
  · split at h
    · cases h
    · cases h
      refine ⟨List.takeWhile_append_dropWhile.symm, closes_of_not_mem fun hmem => ?_⟩
      exact absurd (List.mem_takeWhile_imp hmem) (by decide)

/-- The braces of an `Ask` line are those of its subject and of what it is asked for. -/
theorem braced_of_ask? {cs : List Char} {subject rest : String}
    (h : ask? cs = some (.ask subject rest)) :
    braced cs = braced (subject ++ " " ++ rest).toList := by
  simp only [ask?, Option.bind_eq_bind, Option.bind_eq_some_iff, Prod.exists] at h
  obtain ⟨behind, hkeyword, front, hblanks, who, more, hsubject, asked, hasked, h⟩ := h
  cases h
  obtain ⟨rfl, hcloses⟩ := closes_of_subject? hsubject
  -- The subject and the rest are joined by a blank, whatever white space the line has there.
  have hblank : Braceless [' '] := ⟨by decide, by decide⟩
  have hprompt : (String.ofList who ++ " " ++ trimmed asked).toList =
      who ++ ([' '] ++ (trimmed asked).toList) := by simp
  have hfront := (encloses_of_keyword? (by simp [keywords]) hkeyword).trans
    (encloses_of_blanks? hblanks)
  rw [hfront.braced_eq, hprompt, braced_append (Or.inl hcloses), braced_append (Or.inl hcloses),
    (encloses_trimmed (encloses_of_behindBlanks? hasked)).braced_eq,
    (Encloses.of_front [' '] hblank _).braced_eq]

/-- The text of a line that asks nothing is one piece of the line. -/
theorem encloses_of_ofText? {line text : String} {s : Sentence} (h : ofText? line = some s)
    (ht : s.text? = some text) (hask : ∀ subject rest, s ≠ .ask subject rest) :
    Encloses line.toList text.toList := by
  have h := reader_of_ofText? h
  cases s with
  | send message recipient channel => cases ht
  | ask subject rest => exact absurd rfl (hask subject rest)
  | flow name =>
    cases ht
    simp only [reader, flow?, Option.bind_eq_bind, Option.bind_eq_some_iff] at h
    obtain ⟨behind, hkeyword, h⟩ := h
    split at h
    · rename_i rest heq
      cases h
      have hcolon := encloses_dropBlank behind
      rw [heq] at hcolon
      exact encloses_trimmed ((encloses_of_keyword? (by simp [keywords]) hkeyword).trans
        (hcolon.trans (encloses_colon rest)))
    · cases h
  | perform action =>
    cases ht
    simp only [reader, perform?, Option.bind_eq_bind, Option.bind_eq_some_iff] at h
    obtain ⟨behind, hkeyword, rest, hrest, h⟩ := h
    cases h
    refine encloses_trimmed ((encloses_of_keyword? (by simp [keywords]) hkeyword).trans ?_)
    cases hcolon : behindColon? behind with
    | none =>
      rw [hcolon] at hrest
      exact encloses_of_behindBlanks? hrest
    | some found =>
      rw [hcolon] at hrest
      cases hrest
      exact encloses_of_behindColon? hcolon
  | stop reason =>
    cases ht
    simp only [reader, stop?, Option.bind_eq_bind, Option.bind_eq_some_iff] at h
    obtain ⟨behind, hkeyword, h⟩ := h
    have hdrop := (encloses_of_keyword? (by simp [keywords]) hkeyword).trans
      (encloses_dropBlank behind)
    split at h
    · cases h
    · split at h
      · rename_i rest heq
        cases h
        rw [heq] at hdrop
        exact encloses_trimmed (hdrop.trans (encloses_colon rest))
      · cases h
        exact encloses_trimmed hdrop
  | condition condition =>
    cases ht
    simp only [reader, condition?, Option.bind_eq_bind, Option.bind_eq_some_iff] at h
    obtain ⟨behind, hkeyword, rest, hrest, h⟩ := h
    cases h
    exact encloses_trimmed ((encloses_of_keyword? (by simp [keywords]) hkeyword).trans
      ((encloses_of_behindBlanks? hrest).trans (encloses_takeCondition rest)))
  | otherwise condition =>
    cases ht
    simp only [reader, otherwise?, Option.bind_eq_bind, Option.bind_eq_some_iff] at h
    obtain ⟨behind, hkeyword, h⟩ := h
    have hfront : Encloses line.toList behind := by
      cases hother : keyword? "otherwise".toList line.toList with
      | some found =>
        rw [hother] at hkeyword
        cases hkeyword
        exact encloses_of_keyword? (by simp [keywords]) hother
      | none =>
        rw [hother] at hkeyword
        exact encloses_of_keyword? (by simp [keywords]) hkeyword
    split at h
    · rename_i rest hrest
      cases h
      exact encloses_trimmed (hfront.trans ((encloses_of_behindWord? (by simp [keywords])
        hrest).trans (encloses_takeCondition rest)))
    · split at h <;> cases h

/-- The braces of a line are those of its text. -/
theorem braced_of_ofText? {line text : String} {s : Sentence} (h : ofText? line = some s)
    (ht : s.text? = some text) : braced line.toList = braced text.toList := by
  by_cases hask : ∃ subject rest, s = .ask subject rest
  · obtain ⟨subject, rest, rfl⟩ := hask
    cases ht
    exact braced_of_ask? (reader_of_ofText? h)
  · exact (encloses_of_ofText? h ht fun subject rest heq => hask ⟨subject, rest, heq⟩).braced_eq

end Swimlane.Story.Sentence
