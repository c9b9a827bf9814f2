import Swimlane.Proofs.Words

/-!
# Where `Send` lines are cut

The text of a `Send` line is cut at the words `to` and `via`, between white space.  At the last
`to` the message ends, and at the first `via` behind it the recipient.  Such a cut divides the
words of the text: the keyword is one of them, and there are words on both sides.

## Key results

- `splitLastTo?_cases`, `splitVia_cases`, `splitMessage?_eq_some_iff`: where a text is cut
- `CutsLast.divides`, `CutsFirst.divides`: cuts of a text divide its words
- `send?_eq`: what is read from a `Send` line
-/

namespace Swimlane.Story

open Text

/-! ## Divided words -/

/-- Words are divided at a keyword that has words on both sides. -/
def Divides (word : String) (words front behind : List (List Char)) : Prop :=
  front ≠ [] ∧ behind ≠ [] ∧ ∃ w, SameWord word w ∧ words = front ++ w :: behind

/-- Words are divided at the last place where they can be. -/
def DividesLast (word : String) (words front behind : List (List Char)) : Prop :=
  Divides word words front behind ∧
    ∀ front' behind', Divides word words front' behind' → front'.length ≤ front.length

/-- Words are divided at the first place where they can be. -/
def DividesFirst (word : String) (words front behind : List (List Char)) : Prop :=
  Divides word words front behind ∧
    ∀ front' behind', Divides word words front' behind' → front.length ≤ front'.length

/-- Words are divided in one way at each place. -/
theorem Divides.eq {word : String} {words front behind front' behind' : List (List Char)}
    (h : Divides word words front behind) (h' : Divides word words front' behind')
    (hlength : front.length = front'.length) : front = front' ∧ behind = behind' := by
  obtain ⟨_, _, w, _, hw⟩ := h
  obtain ⟨_, _, w', _, hw'⟩ := h'
  obtain ⟨hfront, hrest⟩ := List.append_inj (hw.symm.trans hw') hlength
  exact ⟨hfront, (List.cons.inj hrest).2⟩

theorem DividesLast.eq {word : String} {words front behind front' behind' : List (List Char)}
    (h : DividesLast word words front behind) (h' : DividesLast word words front' behind') :
    front = front' ∧ behind = behind' :=
  h.1.eq h'.1 (Nat.le_antisymm (h'.2 _ _ h.1) (h.2 _ _ h'.1))

theorem DividesFirst.eq {word : String} {words front behind front' behind' : List (List Char)}
    (h : DividesFirst word words front behind) (h' : DividesFirst word words front' behind') :
    front = front' ∧ behind = behind' :=
  h.1.eq h'.1 (Nat.le_antisymm (h.2 _ _ h'.1) (h'.2 _ _ h.1))

namespace Sentence

/-! ## Cuts -/

/-- A text is cut, behind at least one character, at a keyword between white space. -/
def Cuts (word : String) (cs front rest : List Char) : Prop :=
  front ≠ [] ∧ ∃ x, cs = front ++ x ∧ behindWord? word x = some rest

/-- A text is cut at the last place where it can be. -/
def CutsLast (word : String) (cs front rest : List Char) : Prop :=
  Cuts word cs front rest ∧ ∀ front' rest', Cuts word cs front' rest' → front'.length ≤ front.length

/-- A text is cut at the first place where it can be. -/
def CutsFirst (word : String) (cs front rest : List Char) : Prop :=
  Cuts word cs front rest ∧ ∀ front' rest', Cuts word cs front' rest' → front.length ≤ front'.length

theorem not_cuts_nil {word : String} {front rest : List Char} : ¬ Cuts word [] front rest := by
  rintro ⟨hne, x, hcs, _⟩
  exact hne (List.append_eq_nil_iff.mp hcs.symm).1

/-- A text is cut behind its first character, or further behind. -/
theorem cuts_cons_iff {word : String} {c : Char} {cs front rest : List Char} :
    Cuts word (c :: cs) front rest ↔ (front = [c] ∧ behindWord? word cs = some rest) ∨
      ∃ more, front = c :: more ∧ Cuts word cs more rest := by
  constructor
  · rintro ⟨hne, x, hcs, hx⟩
    obtain ⟨d, more, rfl⟩ := List.exists_cons_of_ne_nil hne
    obtain ⟨rfl, rfl⟩ := List.cons.inj hcs
    by_cases hmore : more = []
    · rw [hmore]
      exact Or.inl ⟨rfl, hx⟩
    · exact Or.inr ⟨more, rfl, hmore, x, rfl, hx⟩
  · rintro (⟨rfl, hx⟩ | ⟨more, rfl, _, x, rfl, hx⟩)
    · exact ⟨List.cons_ne_nil _ _, cs, rfl, hx⟩
    · exact ⟨List.cons_ne_nil _ _, x, rfl, hx⟩

/-- A text is split at the last `to`, if it can be cut at one. -/
theorem splitLastTo?_cases (cs : List Char) :
    (∃ front rest, splitLastTo? cs = some (front, rest) ∧ CutsLast "to" cs front rest) ∨
      splitLastTo? cs = none ∧ ∀ front rest, ¬ Cuts "to" cs front rest := by
  induction cs with
  | nil => exact Or.inr ⟨rfl, fun _ _ => not_cuts_nil⟩
  | cons c cs ih =>
    -- A `to` further behind comes first; only without one is the nearest place tried.
    rcases ih with ⟨front, rest, hsplit, hcuts, hlast⟩ | ⟨hnone, hno⟩
    · refine Or.inl ⟨c :: front, rest, by rw [splitLastTo?, hsplit], ?_, ?_⟩
      · exact cuts_cons_iff.mpr (Or.inr ⟨front, rfl, hcuts⟩)
      · intro front' rest' h
        rcases cuts_cons_iff.mp h with ⟨rfl, _⟩ | ⟨more, rfl, hmore⟩
        · simp
        · simpa using hlast more rest' hmore
    · cases hword : behindWord? "to" cs with
      | none =>
        refine Or.inr ⟨by rw [splitLastTo?, hnone]; simp [hword], fun front rest h => ?_⟩
        rcases cuts_cons_iff.mp h with ⟨_, h⟩ | ⟨more, _, hmore⟩
        · cases hword.symm.trans h
        · exact hno more rest hmore
      | some rest =>
        refine Or.inl ⟨[c], rest, by rw [splitLastTo?, hnone]; simp [hword], ?_, ?_⟩
        · exact cuts_cons_iff.mpr (Or.inl ⟨rfl, hword⟩)
        · intro front' rest' h
          rcases cuts_cons_iff.mp h with ⟨rfl, _⟩ | ⟨more, _, hmore⟩
          · exact Nat.le_refl _
          · exact absurd hmore (hno more rest')

/-- A text is split at the first `via`, or it is a whole recipient. -/
theorem splitVia_cases (cs : List Char) :
    (∃ front rest, splitVia cs = (front, some rest) ∧ CutsFirst "via" cs front rest) ∨
      splitVia cs = (cs, none) ∧ ∀ front rest, ¬ Cuts "via" cs front rest := by
  induction cs with
  | nil => exact Or.inr ⟨rfl, fun _ _ => not_cuts_nil⟩
  | cons c cs ih =>
    cases hword : behindWord? "via" cs with
    | some rest =>
      refine Or.inl ⟨[c], rest, by simp [splitVia, hword], ?_, ?_⟩
      · exact cuts_cons_iff.mpr (Or.inl ⟨rfl, hword⟩)
      · intro front' rest' h
        exact List.length_pos_of_ne_nil h.1
    | none =>
      rcases ih with ⟨front, rest, hsplit, hcuts, hfirst⟩ | ⟨hnone, hno⟩
      · refine Or.inl ⟨c :: front, rest, by simp [splitVia, hword, hsplit], ?_, ?_⟩
        · exact cuts_cons_iff.mpr (Or.inr ⟨front, rfl, hcuts⟩)
        · intro front' rest' h
          rcases cuts_cons_iff.mp h with ⟨_, h⟩ | ⟨more, rfl, hmore⟩
          · cases hword.symm.trans h
          · simpa using hfirst more rest' hmore
      · refine Or.inr ⟨by simp [splitVia, hword, hnone], fun front rest h => ?_⟩
        rcases cuts_cons_iff.mp h with ⟨_, h⟩ | ⟨more, _, hmore⟩
        · cases hword.symm.trans h
        · exact hno more rest hmore

/-! ## Cuts between words -/

/-- A cut divides the words of the text. -/
theorem Cuts.divides {word : String} (hword : word ∈ keywords) {cs front rest : List Char}
    (h : Cuts word cs front rest) (hcs : ∀ c ∈ cs.head?, isBlank c = false) :
    Divides word (blankWords cs) (blankWords front) (blankWords rest) := by
  obtain ⟨hne, x, rfl, hx⟩ := h
  obtain ⟨d, more, w, rfl, hd, hw, hwords, hrest⟩ := blankWords_of_behindWord? hword hx
  refine ⟨blankWords_ne_nil hne fun c hc => hcs c ?_, hrest, w, hw, ?_⟩
  · rw [List.head?_append, Option.mem_def.mp hc]
    rfl
  · rw [blankWords_cons hd] at hwords
    rw [blankWords_append_cons hd, hwords]

/-- Where words are divided, the text can be cut. -/
theorem exists_cuts_of_divides {word : String} (hword : word ∈ keywords) {cs : List Char}
    {front behind : List (List Char)} (h : Divides word (blankWords cs) front behind) :
    ∃ m rest, Cuts word cs m rest ∧ blankWords m = front ∧ blankWords rest = behind := by
  obtain ⟨hfront, hbehind, w, hw, hwords⟩ := h
  obtain ⟨before, gap, rest, hcs, hbefore, hgap, hne, hsolid, hrest, hwords'⟩ :=
    exists_of_blankWords_eq hwords
  have hm : before ≠ [] := by
    rintro rfl
    exact hfront hbefore.symm
  have hhead := isBlank_of_mem_head?_append (hne (Or.inl hfront)) hgap (w ++ rest)
  have hx : blankWords (gap ++ (w ++ rest)) = w :: behind := by
    rw [blankWords_append_left hgap, blankWords_solid_append hsolid hrest, hwords']
  obtain ⟨found, hfound, hbody⟩ := exists_behindWord?_eq_some hword hhead hw hx hbehind
  exact ⟨before, found, ⟨hm, _, hcs, hfound⟩, hbefore, hbody⟩

/-- The longer a front of a text, the more words it has. -/
theorem length_blankWords_le_of_cuts {word : String} {cs front front' rest rest' : List Char}
    (h : Cuts word cs front rest) (h' : Cuts word cs front' rest')
    (hle : front.length ≤ front'.length) :
    (blankWords front).length ≤ (blankWords front').length := by
  obtain ⟨_, x, hx, _⟩ := h
  obtain ⟨_, x', hx', _⟩ := h'
  obtain ⟨more, rfl⟩ := List.prefix_of_prefix_length_le ⟨x, hx.symm⟩ ⟨x', hx'.symm⟩ hle
  exact length_blankWords_le front more

theorem CutsLast.divides {word : String} (hword : word ∈ keywords) {cs front rest : List Char}
    (h : CutsLast word cs front rest) (hcs : ∀ c ∈ cs.head?, isBlank c = false) :
    DividesLast word (blankWords cs) (blankWords front) (blankWords rest) := by
  refine ⟨h.1.divides hword hcs, fun front' behind' h' => ?_⟩
  obtain ⟨m, rest', hcuts, rfl, rfl⟩ := exists_cuts_of_divides hword h'
  exact length_blankWords_le_of_cuts hcuts h.1 (h.2 m rest' hcuts)

theorem CutsFirst.divides {word : String} (hword : word ∈ keywords) {cs front rest : List Char}
    (h : CutsFirst word cs front rest) (hcs : ∀ c ∈ cs.head?, isBlank c = false) :
    DividesFirst word (blankWords cs) (blankWords front) (blankWords rest) := by
  refine ⟨h.1.divides hword hcs, fun front' behind' h' => ?_⟩
  obtain ⟨m, rest', hcuts, rfl, rfl⟩ := exists_cuts_of_divides hword h'
  exact length_blankWords_le_of_cuts h.1 hcuts (h.2 m rest' hcuts)

/-- A text that cannot be cut has words that cannot be divided. -/
theorem not_divides_of_not_cuts {word : String} (hword : word ∈ keywords) {cs : List Char}
    (h : ∀ front rest, ¬ Cuts word cs front rest) (front behind : List (List Char)) :
    ¬ Divides word (blankWords cs) front behind := by
  intro hdivides
  obtain ⟨m, rest, hcuts, _⟩ := exists_cuts_of_divides hword hdivides
  exact h m rest hcuts

/-! ## Messages -/

/-- In front of a word more white space does not matter. -/
theorem behindWord?_cons_cons {c d : Char} (hc : isBlank c = true) (hd : isBlank d = true)
    (word : String) (cs : List Char) :
    behindWord? word (c :: d :: cs) = behindWord? word (d :: cs) := by
  simp [behindWord?, blanks?, hc, hd, dropBlank]

/-- Without white space in front there is no word. -/
theorem behindWord?_eq_none {word : String} {cs : List Char}
    (h : ∀ c ∈ cs.head?, isBlank c = false) : behindWord? word cs = none := by
  cases cs with
  | nil => rfl
  | cons c cs => simp [behindWord?, blanks?, h c rfl]

/-- The nearest split is taken. -/
theorem splitMessage?_of_splitLastTo? {gap body : List Char} {found : List Char × List Char}
    (hgap : gap ≠ []) (h : splitLastTo? body = some found) :
    splitMessage? gap body = some found := by
  fun_cases splitMessage? gap body with
  | case1 => exact absurd rfl hgap
  | case2 => exact h
  | case3 => simp_all
  | case4 => simp_all

/-- White space in front is of no use if no recipient follows. -/
theorem splitMessage?_eq_none {gap body : List Char} {d : Char} (hgap : ∀ c ∈ gap, isBlank c = true)
    (hd : isBlank d = true) (hsplit : splitLastTo? (d :: body) = none)
    (hword : behindWord? "to" (d :: body) = none) : splitMessage? gap (d :: body) = none := by
  induction gap generalizing d body with
  | nil => rfl
  | cons g gap ih =>
    obtain ⟨hg, hgap⟩ := List.forall_mem_cons.mp hgap
    cases gap with
    | nil => rw [splitMessage?, hsplit]
    | cons g' gap =>
      rw [splitMessage?, hsplit]
      refine ih hgap hg ?_ ?_
      · rw [splitLastTo?, hsplit]
        simp [hword]
      · rw [behindWord?_cons_cons hg hd, hword]

/-- What a `Send` line has for its message: the text up to the last `to`, or else one blank if there
    are at least three in front of the word `to`. -/
theorem splitMessage?_eq_some_iff {gap body message rest : List Char}
    (hgap : ∀ c ∈ gap, isBlank c = true) (hbody : ∀ c ∈ body.head?, isBlank c = false) :
    splitMessage? gap body = some (message, rest) ↔
      (gap ≠ [] ∧ splitLastTo? body = some (message, rest)) ∨
      splitLastTo? body = none ∧ ∃ d c gap', gap = d :: c :: gap' ∧ gap' ≠ [] ∧ message = [c] ∧
        behindWord? "to" (d :: body) = some rest := by
  cases hsplit : splitLastTo? body with
  | some found =>
    by_cases hne : gap = []
    · rw [hne]
      simp [splitMessage?]
    · rw [splitMessage?_of_splitLastTo? hne hsplit]
      simp [hne]
  | none =>
    have hnear : ∀ d, splitLastTo? (d :: body) = none := by
      intro d
      rw [splitLastTo?, hsplit]
      simp [behindWord?_eq_none hbody]
    -- The white space is given back blank by blank.  One is kept behind the verb, and one in front
    -- of `to`, so that a message can only be had from the third one on.
    rcases gap with _ | ⟨d, _ | ⟨c, _ | ⟨e, gap⟩⟩⟩
    · simp [splitMessage?]
    · simp [splitMessage?, hsplit]
    · simp [splitMessage?, hsplit, hnear d]
    · simp only [List.forall_mem_cons] at hgap
      obtain ⟨hd, hc, he, hgap⟩ := hgap
      have hmessage : splitLastTo? (c :: d :: body) =
          (behindWord? "to" (d :: body)).map fun rest => ([c], rest) := by
        rw [splitLastTo?, hnear d]
      rw [splitMessage?, hsplit]
      simp only [splitMessage?, hnear d]
      cases hword : behindWord? "to" (d :: body) with
      | none =>
        rw [hword] at hmessage
        rw [splitMessage?_eq_none (List.forall_mem_cons.mpr ⟨he, hgap⟩) hc hmessage
          (by rw [behindWord?_cons_cons hc hd, hword])]
        simp [hword]
      | some rest =>
        rw [hword] at hmessage
        rw [splitMessage?_of_splitLastTo? (List.cons_ne_nil _ _) hmessage]
        simp [hword, eq_comm]

/-- Where the message stands that is split off. -/
theorem exists_of_splitMessage? {gap body message rest : List Char}
    (hgap : ∀ c ∈ gap, isBlank c = true) (hbody : ∀ c ∈ body.head?, isBlank c = false)
    (h : splitMessage? gap body = some (message, rest)) :
    ∃ front x, gap.reverse ++ body = front ++ (message ++ x) ∧ (∀ c ∈ front, isBlank c = true) ∧
      behindWord? "to" x = some rest := by
  rcases (splitMessage?_eq_some_iff hgap hbody).mp h with
    ⟨_, h⟩ | ⟨_, d, c, gap', rfl, _, rfl, hto⟩
  · rcases splitLastTo?_cases body with ⟨front, rest', hsplit, ⟨_, x, hx, hto⟩, _⟩ | ⟨hnone, _⟩
    · cases h.symm.trans hsplit
      exact ⟨gap.reverse, x, by rw [hx], fun c hc => hgap c (List.mem_reverse.mp hc), hto⟩
    · cases h.symm.trans hnone
  · refine ⟨gap'.reverse, d :: body, by simp, fun c hc => hgap c ?_, hto⟩
    exact List.mem_cons_of_mem _ (List.mem_cons_of_mem _ (List.mem_reverse.mp hc))

/-- A `Send` line: the verb, white space, and a body that is split. -/
theorem send?_eq {w gap body : List Char} (hw : SameWord "send" w)
    (hgap : ∀ c ∈ gap, isBlank c = true) (hbody : ∀ c ∈ body.head?, isBlank c = false) :
    send? (w ++ (gap ++ body)) = (splitMessage? gap.reverse body).map fun split =>
      .send (trimmed split.1) (trimmed (splitVia split.2).1)
        ((splitVia split.2).2.map trimmed) := by
  have hkeyword : keyword? "send".toList (w ++ (gap ++ body)) = some (gap ++ body) :=
    keyword?_eq_some_iff.mpr ⟨w, rfl, hw⟩
  rw [send?, hkeyword, Option.bind_eq_bind, Option.bind_some, (span_isBlank hgap hbody).1,
    (span_isBlank hgap hbody).2]
  cases splitMessage? gap.reverse body <;> rfl

/-- The parts of a `Send` line. -/
theorem exists_of_send? {cs : List Char} {s : Sentence} (h : send? cs = some s) :
    ∃ w gap body, SameWord "send" w ∧ (∀ c ∈ gap, isBlank c = true) ∧
      (∀ c ∈ body.head?, isBlank c = false) ∧ cs = w ++ (gap ++ body) := by
  simp only [send?, Option.bind_eq_bind, Option.bind_eq_some_iff] at h
  obtain ⟨behind, hkeyword, _⟩ := h
  obtain ⟨w, rfl, hw⟩ := keyword?_eq_some_iff.mp hkeyword
  refine ⟨w, behind.takeWhile isBlank, behind.dropWhile isBlank, hw,
    fun c hc => List.mem_takeWhile_imp hc, fun c hc => eq_false_of_mem_head?_dropWhile hc, ?_⟩
  rw [List.takeWhile_append_dropWhile]

end Sentence

end Swimlane.Story
