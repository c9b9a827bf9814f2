import Mathlib
import Swimlane.Form.Inference
import Swimlane.Proofs.Firsts
import Swimlane.Proofs.Keywords
import Swimlane.Proofs.Placeholders

/-!
# Clauses and placeholders

A prompt is cut into clauses at commas, semicolons and the words `and` and `or`.  Braces do not
protect a placeholder from this: if its name has such a word, then it is cut in pieces, and no
clause mentions the variable.  Every other placeholder stays whole.

## Key results

- `clausesFrom_append`, `clausesFrom_of_isCut`: what becomes of a stretch of text
- `occurrences_clausesFrom`: the placeholders of the clauses are those that are not cut
- `segments_of_prompt`: for which variables there are clauses
- `segments_of_termsPrompt`: a variable without a clause
-/

namespace Swimlane

/-! ## Cuts -/

namespace Form

/-- Whether a clause ends within a stretch of text, in front of which a word character stands or
    not. -/
def isCut (inWord : Bool) (cs : List Char) : Bool :=
  Text.anyWordStart (Text.startsWithWord ["and", "or"]) inWord cs

theorem isLower_conjunction : ∀ word ∈ ["and", "or"], ∀ k ∈ word.toList, k.isLower = true := by
  have hall : (["and", "or"].all fun word => word.toList.all Char.isLower) = true := by
    decide +kernel
  exact fun word hword => List.all_eq_true.mp (List.all_eq_true.mp hall word hword)

/-- A text is cut where a conjunction stands. -/
theorem mentionsWord_conjunction_iff {cs : List Char} : Text.mentionsWord ["and", "or"] cs = true ↔
    ∃ word ∈ ["and", "or"], Text.Mentions word cs := by
  exact Text.mentionsWord_iff (by decide +kernel)

/-- The conjunctions in front of what is no word character are those of the text before it. -/
theorem behindConjunction?_append {x : List Char} (hx : Text.endsWord x = true) (inWord : Bool)
    (cs : List Char) :
    behindConjunction? inWord (cs ++ x) = (behindConjunction? inWord cs).map (· ++ x) := by
  have hand := Text.wholeWord?_append hx (isLower_conjunction "and" (by simp)) cs
  have hor := Text.wholeWord?_append hx (isLower_conjunction "or" (by simp)) cs
  rw [behindConjunction?, behindConjunction?, hand, hor]
  cases inWord with
  | true => rfl
  | false => cases Text.wholeWord? "and" cs <;> rfl

/-- A conjunction takes up word characters. -/
theorem behindConjunction?_eq_some {inWord : Bool} {cs rest : List Char}
    (h : behindConjunction? inWord cs = some rest) :
    ∃ c front, cs = c :: front ++ rest ∧ ∀ d ∈ c :: front, Text.isWordChar d = true := by
  have hword : ∃ word ∈ ["and", "or"], Text.wholeWord? word cs = some rest := by
    rw [behindConjunction?] at h
    cases inWord with
    | true => cases h
    | false =>
      cases hand : Text.wholeWord? "and" cs with
      | none => rw [hand] at h; exact ⟨"or", by simp, h⟩
      | some behind => rw [hand] at h; exact ⟨"and", by simp, hand.trans h⟩
  obtain ⟨word, hmem, hword⟩ := hword
  obtain ⟨front, rfl, hfront⟩ :=
    Text.keyword?_eq_some_iff.mp (Text.wholeWord?_eq_some_iff.mp hword).1
  have hfront := Text.isWordChar_of_forall₂ hfront (isLower_conjunction word hmem)
  cases front with
  | nil => exact absurd (Text.length_wholeWord? hword) (by fin_cases hmem <;> simp)
  | cons c front => exact ⟨c, front, rfl, hfront⟩

/-- Whether a text starts with a conjunction. -/
theorem isSome_behindConjunction? (inWord : Bool) (cs : List Char) :
    (behindConjunction? inWord cs).isSome =
      (!inWord && Text.startsWithWord ["and", "or"] cs) := by
  rw [behindConjunction?]
  cases inWord with
  | true => rfl
  | false => cases hand : Text.wholeWord? "and" cs <;> simp [Text.startsWithWord, hand]

/-- A stretch of text is cut at a conjunction at its front, or behind its first character. -/
theorem isCut_cons (inWord : Bool) (c : Char) (cs : List Char) : isCut inWord (c :: cs) =
    ((behindConjunction? inWord (c :: cs)).isSome || isCut (Text.isWordChar c) cs) := by
  have hword : (behindConjunction? inWord (c :: cs)).isSome = true → Text.isWordChar c = true := by
    intro h
    obtain ⟨rest, hrest⟩ := Option.isSome_iff_exists.mp h
    obtain ⟨d, front, heq, hfront⟩ := behindConjunction?_eq_some hrest
    rw [List.cons_append, List.cons.injEq] at heq
    rw [heq.1]
    exact hfront d List.mem_cons_self
  rw [isCut, isCut, Text.anyWordStart, Bool.and_assoc, ← isSome_behindConjunction?]
  cases hsome : (behindConjunction? inWord (c :: cs)).isSome with
  | true => rw [hword hsome]; rfl
  | false => rw [Bool.and_false]

/-- A text is cut before the end of a word, or behind it. -/
theorem isCut_append {x : List Char} (hx : Text.endsWord x = true) (inWord : Bool)
    (cs : List Char) : isCut inWord (cs ++ x) =
      (isCut inWord cs || isCut (Text.endsInWord inWord cs) x) := by
  induction cs generalizing inWord with
  | nil => rfl
  | cons c cs ih =>
    have hfront := behindConjunction?_append hx inWord (c :: cs)
    rw [List.cons_append] at hfront ⊢
    rw [isCut_cons, isCut_cons, hfront, ih, Option.isSome_map, Bool.or_assoc]
    rfl

/-- White space is not cut. -/
theorem isCut_of_isBlank {cs : List Char} (h : ∀ c ∈ cs, Text.isBlank c = true) (inWord : Bool) :
    isCut inWord cs = false := by
  induction cs generalizing inWord with
  | nil => rfl
  | cons c cs ih =>
    obtain ⟨hc, hcs⟩ := List.forall_mem_cons.mp h
    have hword := Text.isWordChar_of_isBlank hc
    rw [isCut, Text.anyWordStart, hword]
    exact ih hcs _

/-- White space in front of a text does not change where it is cut. -/
theorem isCut_append_of_isBlank {front : List Char} (h : ∀ c ∈ front, Text.isBlank c = true)
    (cs : List Char) : isCut false (front ++ cs) = isCut false cs := by
  induction front with
  | nil => rfl
  | cons c front ih =>
    obtain ⟨hc, hfront⟩ := List.forall_mem_cons.mp h
    have hword := Text.isWordChar_of_isBlank hc
    rw [List.cons_append, isCut, Text.anyWordStart, hword]
    exact ih hfront

/-- What is inside of the braces of a placeholder is cut if the name is. -/
theorem isCut_inside {before after : List Char} (hbefore : ∀ c ∈ before, Text.isBlank c = true)
    (hafter : ∀ c ∈ after, Text.isBlank c = true) (name : List Char) :
    isCut false (before ++ (name ++ after)) = isCut false name := by
  have hends : Text.endsWord after = true := by
    cases after with
    | nil => rfl
    | cons c after =>
      rw [Text.endsWord, Text.isWordChar_of_isBlank (hafter c List.mem_cons_self)]
      rfl
  rw [isCut_append_of_isBlank hbefore, isCut_append hends, isCut_of_isBlank hafter, Bool.or_false]

/-! ## Stretches of text -/

theorem clausesFrom_ne_nil (inWord : Bool) (cs : List Char) : clausesFrom inWord cs ≠ [] := by
  cases cs with
  | nil => simp [clausesFrom]
  | cons c rest =>
    rw [clausesFrom]
    split
    · simp
    · split
      · simp
      · split <;> simp

/-- A character that does not end the clause belongs to it. -/
theorem clausesFrom_cons {inWord : Bool} {c : Char} {rest : List Char} (hmark : c ≠ ',' ∧ c ≠ ';')
    (hnone : behindConjunction? inWord (c :: rest) = none) : clausesFrom inWord (c :: rest) =
      (clausesFrom (Text.isWordChar c) rest).modifyHead (c :: ·) := by
  rw [clausesFrom, if_neg (by simp [hmark])]
  split
  · rename_i hsome
    rw [hnone] at hsome
    cases hsome
  · split
    · rename_i hnil
      exact absurd hnil (clausesFrom_ne_nil _ _)
    · rename_i hmore
      rw [hmore]
      rfl

/-- A comma or a semicolon ends the clause. -/
theorem clausesFrom_of_mark {inWord : Bool} {c : Char} {rest : List Char}
    (hmark : c = ',' ∨ c = ';') :
    clausesFrom inWord (c :: rest) = [] :: clausesFrom false rest := by
  rw [clausesFrom, if_pos (by simpa using hmark)]

/-- A conjunction ends the clause. -/
theorem clausesFrom_of_conjunction {inWord : Bool} {c : Char} {rest behind : List Char}
    (hmark : c ≠ ',' ∧ c ≠ ';') (h : behindConjunction? inWord (c :: rest) = some behind) :
    clausesFrom inWord (c :: rest) = [] :: clausesFrom true behind := by
  rw [clausesFrom, if_neg (by simp [hmark])]
  split
  · rename_i hsome
    rw [h] at hsome
    cases hsome
    rfl
  · rename_i hnone
    rw [h] at hnone
    cases hnone

/-- A stretch of text that is not cut stays whole, at the front of the first clause. -/
theorem clausesFrom_append {front x : List Char} (hmarks : ∀ c ∈ front, c ≠ ',' ∧ c ≠ ';')
    {inWord : Bool} (hcut : isCut inWord front = false) (hx : Text.endsWord x = true) :
    clausesFrom inWord (front ++ x) =
      (clausesFrom (Text.endsInWord inWord front) x).modifyHead (front ++ ·) := by
  induction front generalizing inWord with
  | nil =>
    obtain ⟨clause, more, heq⟩ := List.exists_cons_of_ne_nil (clausesFrom_ne_nil inWord x)
    simp [Text.endsInWord, heq]
  | cons c front ih =>
    obtain ⟨hmark, hmarks⟩ := List.forall_mem_cons.mp hmarks
    rw [isCut_cons, Bool.or_eq_false_iff, Option.isSome_eq_false_iff, Option.isNone_iff_eq_none]
      at hcut
    have hnone := behindConjunction?_append hx inWord (c :: front)
    rw [hcut.1, Option.map_none, List.cons_append] at hnone
    rw [List.cons_append, clausesFrom_cons hmark hnone, ih hmarks hcut.2,
      List.modifyHead_modifyHead]
    rfl

/-- A stretch of text that is cut reaches beyond the first clause. -/
theorem clausesFrom_of_isCut {front x : List Char} (hmarks : ∀ c ∈ front, c ≠ ',' ∧ c ≠ ';')
    {inWord : Bool} (hcut : isCut inWord front = true) (hx : Text.endsWord x = true) :
    ∃ clause more, clausesFrom inWord (front ++ x) = clause :: more ∧ clause <+: front := by
  induction front generalizing inWord with
  | nil => cases hcut
  | cons c front ih =>
    obtain ⟨hmark, hmarks⟩ := List.forall_mem_cons.mp hmarks
    have hfront := behindConjunction?_append hx inWord (c :: front)
    rw [List.cons_append] at hfront
    cases hsome : behindConjunction? inWord (c :: front) with
    | none =>
      rw [isCut_cons, hsome] at hcut
      rw [hsome] at hfront
      obtain ⟨clause, more, heq, hstart⟩ := ih hmarks hcut
      refine ⟨c :: clause, more, ?_, List.cons_prefix_cons.mpr ⟨rfl, hstart⟩⟩
      rw [List.cons_append, clausesFrom_cons hmark hfront, heq]
      rfl
    | some rest =>
      rw [hsome] at hfront
      refine ⟨[], clausesFrom true (rest ++ x), ?_, List.nil_prefix⟩
      rw [List.cons_append, clausesFrom_of_conjunction hmark hfront]

/-- The first clause is at the front of the text. -/
theorem prefix_of_clausesFrom {inWord : Bool} {cs clause : List Char} {more : List (List Char)}
    (h : clausesFrom inWord cs = clause :: more) : clause <+: cs := by
  induction cs generalizing inWord clause more with
  | nil =>
    rw [clausesFrom] at h
    cases h
    exact List.nil_prefix
  | cons c rest ih =>
    by_cases hmark : c ≠ ',' ∧ c ≠ ';'
    · cases hconj : behindConjunction? inWord (c :: rest) with
      | some behind =>
        rw [clausesFrom_of_conjunction hmark hconj] at h
        cases h
        exact List.nil_prefix
      | none =>
        obtain ⟨clause', more', heq⟩ :=
          List.exists_cons_of_ne_nil (clausesFrom_ne_nil (Text.isWordChar c) rest)
        rw [clausesFrom_cons hmark hconj, heq, List.modifyHead_cons, List.cons.injEq] at h
        rw [← h.1]
        exact List.cons_prefix_cons.mpr ⟨rfl, ih heq⟩
    · rw [clausesFrom_of_mark (by simpa [or_iff_not_imp_left] using hmark)] at h
      cases h
      exact List.nil_prefix

/-! ## Placeholders -/

open Placeholder in
/-- A placeholder at the front of a text is at the front of the first clause, unless it is cut. -/
theorem front?_clause {rest clause : List Char} {more : List (List Char)}
    (h : clausesFrom false rest = clause :: more) :
    (front? ('{' :: clause)).map (·.1) =
      ((front? ('{' :: rest)).map (·.1)).filter fun name => !isCut false name := by
  cases hfront : front? ('{' :: rest) with
  | none =>
    -- What is at the front of the clause is at the front of the text.
    obtain ⟨tail, rfl⟩ := prefix_of_clausesFrom h
    cases hclause : front? ('{' :: clause) with
    | none => rfl
    | some found =>
      obtain ⟨written, hwritten, heq⟩ := front?_eq_some_iff.mp hclause
      have hsome : front? ('{' :: (clause ++ tail)) = some (found.1, found.2 ++ tail) :=
        front?_eq_some_iff.mpr ⟨written, hwritten, by rw [← List.cons_append, heq]; simp⟩
      rw [hfront] at hsome
      cases hsome
  | some found =>
    obtain ⟨name, behind⟩ := found
    obtain ⟨written, hwritten, heq⟩ := front?_eq_some_iff.mp hfront
    obtain ⟨before, after, hbefore, hafter, rfl, hinside⟩ := hwritten.inside
    have hrest : rest = (before ++ (name ++ after)) ++ '}' :: behind := by simpa using heq
    have hmarks : ∀ c ∈ before ++ (name ++ after), c ≠ ',' ∧ c ≠ ';' :=
      fun c hc => (hinside c hc).2.2
    have hends : Text.endsWord ('}' :: behind) = true := by
      rw [Text.endsWord]
      decide
    rw [hrest] at h
    have hcut := isCut_inside hbefore hafter name
    cases hname : isCut false name with
    | true =>
      -- The first clause ends before the brace is closed.
      rw [hname] at hcut
      obtain ⟨clause', more', heq', hstart⟩ := clausesFrom_of_isCut hmarks hcut hends
      rw [heq', List.cons.injEq] at h
      have hopen : front? ('{' :: clause) = none := by
        refine front?_eq_none fun hmem => ?_
        rw [← h.1] at hmem
        rcases List.mem_cons.mp hmem with heq | hmem
        · cases heq
        · exact (hinside _ (hstart.subset hmem)).2.1 rfl
      rw [hopen, Option.map_some, Option.filter_some, hname]
      rfl
    | false =>
      -- The first clause goes on behind the closing brace.
      rw [hname] at hcut
      obtain ⟨clause', more', heq'⟩ := List.exists_cons_of_ne_nil (clausesFrom_ne_nil false behind)
      have hclosing : ∀ inWord, clausesFrom inWord ('}' :: behind) = ('}' :: clause') :: more' := by
        intro inWord
        have hword : Text.isWordChar '}' = false := by decide
        have hnone : behindConjunction? inWord ('}' :: behind) = none := by
          cases hsome : behindConjunction? inWord ('}' :: behind) with
          | none => rfl
          | some rest =>
            obtain ⟨c, front, heq, hfront⟩ := behindConjunction?_eq_some hsome
            have hc := hfront c List.mem_cons_self
            rw [← (List.cons.inj heq).1, hword] at hc
            cases hc
        rw [clausesFrom_cons (by decide) hnone, hword, heq', List.modifyHead_cons]
      rw [clausesFrom_append hmarks hcut hends, hclosing, List.modifyHead_cons, List.cons.injEq]
        at h
      have hsome : front? ('{' :: clause) = some (name, clause') :=
        front?_eq_some_iff.mpr ⟨_, hwritten, by rw [← h.1]; simp⟩
      rw [hsome, Option.map_some, Option.map_some, Option.filter_some, hname]
      rfl

open Placeholder in
/-- The placeholders of the clauses are those of the text with names that are not cut. -/
theorem occurrences_clausesFrom (inWord : Bool) (cs : List Char) :
    (clausesFrom inWord cs).flatMap occurrences =
      (occurrences cs).filter fun name => !isCut false name.toList := by
  fun_induction clausesFrom inWord cs with
  | case1 => rfl
  | case2 inWord c rest hmark ih =>
    -- Neither mark opens a placeholder.
    have hbrace : c ≠ '{' := by
      rintro rfl
      exact absurd hmark (by decide)
    have hnone : front? (c :: rest) = none := by rw [front?, if_neg hbrace]
    rw [List.flatMap_cons, ih, occurrences_of_front?_eq_none hnone]
    rfl
  | case3 inWord c rest hmark behind hconj _ ih =>
    -- A conjunction has no braces.
    obtain ⟨d, front, heq, hfront⟩ := behindConjunction?_eq_some hconj
    have hbraces : ∀ e ∈ d :: front, e ≠ '{' := by
      rintro e he rfl
      exact absurd (hfront _ he) (by decide)
    rw [List.flatMap_cons, ih, heq, occurrences_append hbraces]
    rfl
  | case4 inWord c rest _ _ hnil ih => exact absurd hnil (clausesFrom_ne_nil _ _)
  | case5 inWord c rest hmark hconj clause more hclauses ih =>
    rw [hclauses, List.flatMap_cons] at ih
    have hfront : ((front? (c :: clause)).map (·.1)) =
        ((front? (c :: rest)).map (·.1)).filter fun name => !isCut false name := by
      by_cases hbrace : c = '{'
      · subst hbrace
        have hword : Text.isWordChar '{' = false := by decide
        rw [hword] at hclauses
        exact front?_clause hclauses
      · rw [front?, front?, if_neg hbrace, if_neg hbrace]
        rfl
    rw [List.flatMap_cons, occurrences, occurrences, List.filter_append, List.append_assoc, ih]
    congr 1
    have hname : ∀ found : Option (List Char × List Char),
        found.map (fun f => String.ofList f.1) = (found.map (·.1)).map String.ofList := by
      intro found
      rw [Option.map_map]
      rfl
    rw [hname, hname, hfront]
    cases (front? (c :: rest)).map (·.1) with
    | none => rfl
    | some name => cases hcut : isCut false name <;> simp [Option.filter_some, hcut]

/-! ## Segments -/

/-- The clauses of a prompt by the variables that they mention; of clauses that mention the same
    variable the first one counts. -/
def segments (prompt : String) : List (String × String) :=
  Assoc.ofFirsts ((mentions prompt).flatMap fun m => m.2.map fun name => (name, m.1))

/-- Looking up a segment is looking for the first clause that mentions the variable. -/
theorem clauseOf_mentions (prompt name : String) :
    clauseOf (mentions prompt) name = (Assoc.get? name (segments prompt)).getD "" := by
  have hclause : ∀ m : String × List String,
      Assoc.get? name (m.2.map fun name => (name, m.1)) =
        if m.2.contains name then some m.1 else none := by
    intro m
    induction m.2 with
    | nil => rfl
    | cons first rest ih =>
      rw [List.map_cons, Assoc.get?, ih, List.contains_cons, BEq.comm]
      cases name == first <;> rfl
  have hfind : ∀ ms : List (String × List String),
      Assoc.get? name (ms.flatMap fun m => m.2.map fun name => (name, m.1)) =
        (ms.find? fun m => m.2.contains name).map (·.1) := by
    intro ms
    induction ms with
    | nil => rfl
    | cons m rest ih =>
      rw [List.flatMap_cons, Assoc.get?_append, hclause, ih, List.find?_cons]
      cases m.2.contains name <;> rfl
  rw [segments, Assoc.get?_ofFirsts, hfind]
  rfl

/-- The variables that have a segment are those of the prompt with names that are not cut. -/
theorem keys_segments (prompt : String) : (segments prompt).map (·.1) =
    (Placeholder.names prompt).filter fun name => !Text.mentionsWord ["and", "or"] name.toList := by
  have hnames : ((mentions prompt).flatMap fun m => m.2.map fun name => (name, m.1)).map (·.1) =
      (clausesFrom false prompt.toList).flatMap fun clause =>
        (Placeholder.occurrences clause).eraseDups := by
    rw [mentions, clauses, List.map_map, List.flatMap_map, List.map_flatMap]
    refine List.flatMap_congr fun clause _ => ?_
    rw [Function.comp_apply, Placeholder.names_eq_occurrences, String.toList_ofList, List.map_map]
    exact List.map_id _
  -- Repetitions may be dropped at the end instead of in each clause.
  rw [segments, Assoc.keys_ofFirsts, hnames, eraseDups_flatMap_eraseDups, occurrences_clausesFrom,
    eraseDups_filter, ← Placeholder.names_eq_occurrences]
  rfl

/-- A segment is a clause of the prompt, and mentions its variable. -/
theorem mem_segments {prompt : String} {p : String × String} (hp : p ∈ segments prompt) :
    p.2 ∈ clauses prompt ∧ p.1 ∈ Placeholder.names p.2 := by
  have hnodup : ((segments prompt).map (·.1)).Nodup := by
    rw [keys_segments]
    exact (Placeholder.nodup_names prompt).filter _
  have hfound := Assoc.get?_of_mem hnodup hp
  rw [segments, Assoc.get?_ofFirsts] at hfound
  obtain ⟨m, hm, hpair⟩ := List.mem_flatMap.mp (Assoc.mem_of_get? hfound)
  obtain ⟨name, hname, heq⟩ := List.mem_map.mp hpair
  obtain ⟨clause, hclause, rfl⟩ := List.mem_map.mp hm
  cases heq
  exact ⟨hclause, hname⟩

/-- A variable has no segment if its name is cut. -/
theorem get?_segments_eq_none_iff {prompt name : String} (h : name ∈ Placeholder.names prompt) :
    Assoc.get? name (segments prompt) = none ↔
      Text.mentionsWord ["and", "or"] name.toList = true := by
  have hkey : name ∈ (segments prompt).map (·.1) ↔
      Text.mentionsWord ["and", "or"] name.toList = false := by
    rw [keys_segments, List.mem_filter, Bool.not_eq_true']
    exact and_iff_right h
  rw [← Option.not_isSome_iff_eq_none, Assoc.isSome_get?_iff, hkey, Bool.not_eq_false]

/-- The fields of a form are inferred from the segments of its prompt. -/
theorem fields_of_infer? {stateId prompt : String} {exclude : List String} {f : Form}
    (h : infer? stateId prompt exclude = some f) :
    f.fields = ((Placeholder.names prompt).filter (!exclude.contains ·)).map fun name =>
      Field.infer name ((Assoc.get? name (segments prompt)).getD "") := by
  rw [infer?] at h
  split at h
  · cases h
  · cases h
    exact List.map_congr_left fun name _ => by rw [clauseOf_mentions]

/-- The segments of a prompt are stored for those of its variables, in their order, whose names do
    not hold the word `and` or `or`, and each of them holds a placeholder of its variable.  So all
    variables have segments exactly if there is no such name; a variable with such a name has
    none, and its field is inferred from an empty segment. -/
theorem segments_of_prompt (prompt : String) :
    (segments prompt).map (·.1) = (Placeholder.names prompt).filter
      (fun name => !Text.mentionsWord ["and", "or"] name.toList) ∧
    (∀ p ∈ segments prompt, p.2 ∈ clauses prompt ∧ ∃ i, Placeholder.At p.2.toList i p.1) ∧
    ((segments prompt).map (·.1) = Placeholder.names prompt ↔
      ∀ name ∈ Placeholder.names prompt, ∀ word ∈ ["and", "or"], ¬ Text.Mentions word name.toList) ∧
    (∀ name ∈ Placeholder.names prompt, Assoc.get? name (segments prompt) = none ↔
      ∃ word ∈ ["and", "or"], Text.Mentions word name.toList) ∧
    ∀ stateId exclude f, infer? stateId prompt exclude = some f →
      f.fields = ((Placeholder.names prompt).filter (!exclude.contains ·)).map fun name =>
        Field.infer name ((Assoc.get? name (segments prompt)).getD "") := by
  refine ⟨keys_segments prompt, fun p hp => ?_, ?_, fun name hname => ?_, fun _ _ f hf => ?_⟩
  · obtain ⟨hclause, hname⟩ := mem_segments hp
    exact ⟨hclause, Placeholder.mem_names_iff.mp hname⟩
  · rw [keys_segments, List.filter_eq_self]
    refine forall₂_congr fun name _ => ?_
    rw [Bool.not_eq_true', ← Bool.not_eq_true, mentionsWord_conjunction_iff]
    simp only [not_exists, not_and]
  · rw [get?_segments_eq_none_iff hname, mentionsWord_conjunction_iff]
  · exact fields_of_infer? hf

/-- A prompt for a variable with the word `and` in its name. -/
def termsPrompt : String := "\x7bterms-and-conditions\x7d (yes/no)"

theorem names_termsPrompt : Placeholder.names termsPrompt = ["terms-and-conditions"] := by cbv

theorem segments_termsPrompt : segments termsPrompt = [] := by cbv

theorem inferType_termsPrompt :
    (Field.inferType "terms-and-conditions" []).1 = .text ∧
    (Field.inferType "terms-and-conditions" (Field.eraseBraced false termsPrompt.toList)).1 =
      .boolean := by
  decide +kernel

/-- No clause of this prompt mentions its variable, which becomes a text.  With the words behind
    its placeholder it would become a yes or no. -/
theorem segments_of_termsPrompt : Placeholder.names termsPrompt = ["terms-and-conditions"] ∧
    segments termsPrompt = [] ∧
    (∃ f, infer? "s" termsPrompt [] = some f ∧ f.fields.map (·.type) = [.str "text"]) ∧
    (Field.infer "terms-and-conditions" termsPrompt).type = .str "boolean" := by
  obtain ⟨htext, hboolean⟩ := inferType_termsPrompt
  have hform : ∃ f, infer? "s" termsPrompt [] = some f := by
    rw [infer?, names_termsPrompt]
    exact ⟨_, rfl⟩
  obtain ⟨f, hf⟩ := hform
  refine ⟨names_termsPrompt, segments_termsPrompt, ⟨f, hf, ?_⟩, ?_⟩
  · rw [fields_of_infer? hf, names_termsPrompt, segments_termsPrompt]
    exact congrArg (fun type : FieldType => [Json.str type.name]) htext
  · exact congrArg (fun type : FieldType => Json.str type.name) hboolean

end Form

end Swimlane
