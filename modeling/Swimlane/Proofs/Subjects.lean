import Swimlane.Proofs.Sentences
import Swimlane.Proofs.SourceLines

/-!
# Who is asked

A line that asks has a subject: a word, or a word between braces.

## Key results

- `Sentence.isSubject_of_ofText?`: what an `Ask` line has for its subject
- `unbraced_ne_empty`: a subject is not empty without its braces
- `isSubject_of_parse`: the subjects that a story asks
-/

namespace Swimlane.Story

/-! ## Subjects -/

/-- A word without white space and braces, or such a word between braces. -/
def IsSubject (subject : String) : Prop :=
  ∃ name : List Char, name ≠ [] ∧ (∀ c ∈ name, Sentence.isSubjectChar c = true) ∧
    (subject.toList = name ∨ subject.toList = '{' :: name ++ ['}'])

namespace Sentence

/-- What is read as a subject is one. -/
theorem isSubject_of_subject? {cs subject rest : List Char}
    (h : subject? cs = some (subject, rest)) : IsSubject (String.ofList subject) := by
  have hword : ∀ cs : List Char, ∀ c ∈ cs.takeWhile isSubjectChar, isSubjectChar c = true :=
    fun cs c hc => List.mem_takeWhile_imp hc
  unfold subject? at h
  split at h
  · rename_i cs
    split at h
    · cases h
    · rename_i hne
      cases h
      exact ⟨_, hne, hword cs, Or.inr (by simp)⟩
    · cases h
  · split at h
    · cases h
    · rename_i hne
      cases h
      exact ⟨_, hne, hword cs, Or.inl (by simp)⟩

/-- The subject of an `Ask` line. -/
theorem isSubject_of_ofText? {text subject rest : String}
    (h : ofText? text = some (.ask subject rest)) : IsSubject subject := by
  have hask := reader_of_ofText? h
  simp only [reader, ask?, Option.bind_eq_bind, Option.bind_eq_some_iff, Prod.exists] at hask
  obtain ⟨_, _, _, _, _, _, hsubject, _, _, hask⟩ := hask
  cases hask
  exact isSubject_of_subject? hsubject

end Sentence

/-- Trimming leaves what stands between characters of the class. -/
theorem trimBy_enclosed {p : Char → Bool} (before behind : List Char) {name : List Char}
    (hbefore : ∀ c ∈ before, p c = true) (hbehind : ∀ c ∈ behind, p c = true) (hne : name ≠ [])
    (hname : ∀ c ∈ name, p c = false) : Text.trimBy p (before ++ (name ++ behind)) = name := by
  have hdrop : ∀ cs rest : List Char, cs ≠ [] → (∀ c ∈ cs, p c = false) →
      (cs ++ rest).dropWhile p = cs ++ rest := by
    intro cs rest hcs hall
    obtain ⟨c, more, rfl⟩ := List.exists_cons_of_ne_nil hcs
    rw [List.cons_append, List.dropWhile_cons_of_neg (by simp [hall c List.mem_cons_self])]
  have hreverse : ∀ c ∈ name.reverse, p c = false := fun c hc => hname c (List.mem_reverse.mp hc)
  rw [Text.trimBy, List.dropWhile_append_of_pos hbefore, hdrop name behind hne hname,
    List.reverse_append,
    List.dropWhile_append_of_pos fun c hc => hbehind c (List.mem_reverse.mp hc),
    ← List.append_nil name.reverse, hdrop _ _ (by simpa using hne) hreverse, List.append_nil,
    List.reverse_reverse]

/-- A subject is not empty without its braces. -/
theorem unbraced_ne_empty {subject : String} (h : IsSubject subject) :
    Placeholder.unbraced subject ≠ "" := by
  obtain ⟨name, hne, hname, hsubject⟩ := h
  have hbare : ∀ c ∈ name, (c == '{' || c == '}') = false := by
    intro c hc
    have hchar := hname c hc
    simp only [Sentence.isSubjectChar, Bool.and_eq_true, bne_iff_ne] at hchar
    simp [hchar.1.2, hchar.2]
  have hunbraced : Placeholder.unbraced subject = String.ofList name := by
    rw [Placeholder.unbraced]
    cases hsubject with
    | inl h =>
      have htrim := trimBy_enclosed [] [] (by simp) (by simp) hne hbare
      rw [List.nil_append, List.append_nil] at htrim
      rw [h, htrim]
    | inr h =>
      have htrim := trimBy_enclosed ['{'] ['}'] (by simp) (by simp) hne hbare
      rw [h]
      exact congrArg String.ofList htrim
  intro hempty
  rw [hunbraced] at hempty
  exact hne (by simpa using congrArg String.toList hempty)

/-! ## Stories -/

/-- The subjects that a story asks. -/
theorem isSubject_of_parse {story : String} {statements : List Statement}
    (h : parse story = .ok statements) {source : Source} {subject prompt : String}
    (hask : .ask source subject prompt ∈ preorderAll statements.tail) : IsSubject subject := by
  have hmem : .ask source subject prompt ∈ preorderAll statements := by
    cases statements with
    | nil => exact hask
    | cons s rest => exact List.mem_append_right _ hask
  obtain ⟨l, _, hsaid, _⟩ := stands_of_parse h hmem
  cases hsaid with
  | ask htext => exact Sentence.isSubject_of_ofText? htext

end Swimlane.Story
