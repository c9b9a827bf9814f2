import Mathlib
import Swimlane.Proofs.Labels

/-!
# Words of names

Words of a name are divided by separators and at the boundaries of camel case.  The words of two
names, one behind the other, are those of the first and those of the second exactly if words are
divided between them.  By this law a name is taken apart, until nothing but separators and words
are left.

## Key results

- `spaceCamel_append_cons`: camel case in a name that goes on
- `nameWords_append`: the words of a name that is cut where words are divided
- `nameWords_of_isWord`: a word is its own word
- `name_induction`: names consist of words and separators
- `nameWords_append_iff`: no word of a name ends where words are not divided
-/

namespace Swimlane.Text

/-- A word of a name: it is not empty, has no separator, and no word of camel case begins in it. -/
structure IsWord (w : List Char) : Prop where
  ne_nil : w ≠ []
  solid : ∀ c ∈ w, isSeparator c = false
  /-- No capital is behind a small letter or a digit. -/
  behind_small : ∀ a b, [a, b] <:+: w → a.isLower = true ∨ a.isDigit = true → b.isUpper = false
  /-- No small letter is behind several capitals. -/
  behind_capitals : ∀ a b c, [a, b, c] <:+: w → a.isUpper = true → b.isUpper = true →
    c.isLower = false

/-- Whether words are divided between `a` and `b`, which `next` follows: by a separator, or at a
    boundary of camel case. -/
def isDivision (a b : Char) (next : Option Char) : Bool :=
  isSeparator a || isSeparator b || isCamelBoundary a b next

/-- Words are divided between two texts, or there is nothing on one of the sides. -/
def Divides (front back : List Char) : Prop :=
  ∀ a ∈ front.getLast?, ∀ b ∈ back.head?, isDivision a b back.tail.head? = true

theorem isDivision_eq_true {a b : Char} {next : Option Char} : isDivision a b next = true ↔
    isSeparator a = true ∨ isSeparator b = true ∨ isCamelBoundary a b next = true := by
  simp [isDivision, or_assoc]

theorem isDivision_eq_false {a b : Char} {next : Option Char} : isDivision a b next = false ↔
    isSeparator a = false ∧ isSeparator b = false ∧ isCamelBoundary a b next = false := by
  simp [isDivision, and_assoc]

theorem divides_concat_cons {front : List Char} {a b : Char} {rest : List Char} :
    Divides (front ++ [a]) (b :: rest) ↔ isDivision a b rest.head? = true := by
  simp [Divides]

/-! ## Camel case -/

theorem isCamelBoundary_iff {a b : Char} {next : Option Char} :
    isCamelBoundary a b next = true ↔
      b.isUpper = true ∧ ((a.isLower = true ∨ a.isDigit = true) ∨
        a.isUpper = true ∧ ∃ c ∈ next, c.isLower = true) := by
  cases next <;> simp [isCamelBoundary]

/-- The blank between a character and the text behind it, if a word of camel case begins there. -/
def camelGap (a : Char) : List Char → List Char
  | [] => []
  | b :: rest => if isCamelBoundary a b rest.head? then [' '] else []

theorem spaceCamel_cons (a : Char) (cs : List Char) :
    spaceCamel (a :: cs) = a :: (camelGap a cs ++ spaceCamel cs) := by
  cases cs with
  | nil => rfl
  | cons b rest =>
    rw [spaceCamel, camelGap]
    split <;> rfl

/-- A separator does not stand at a boundary of camel case. -/
theorem isCamelBoundary_of_isSeparator {a b : Char} {next : Option Char}
    (h : isSeparator a = true ∨ isSeparator b = true) : isCamelBoundary a b next = false := by
  by_contra hboundary
  obtain ⟨ha, hb⟩ := isSeparator_of_isCamelBoundary (Bool.eq_true_of_not_eq_false hboundary)
  rw [ha, hb] at h
  simp at h

/-- What follows on two characters matters only if it is a small letter. -/
theorem isCamelBoundary_eq_none (a b : Char) {next : Option Char}
    (h : ∀ c ∈ next, c.isLower = false) :
    isCamelBoundary a b next = isCamelBoundary a b none := by
  cases next with
  | none => rfl
  | some c => simp [isCamelBoundary, h c rfl]

/-- A name that goes on with other than a small letter keeps its boundaries. -/
theorem spaceCamel_append_cons (front : List Char) (a : Char) {back : List Char}
    (h : ∀ b ∈ back.head?, b.isLower = false) :
    spaceCamel (front ++ a :: back) =
      spaceCamel (front ++ [a]) ++ (camelGap a back ++ spaceCamel back) := by
  induction front with
  | nil => exact spaceCamel_cons a back
  | cons x front ih =>
    -- Only the last boundary in front of `back` could depend on it.
    have hgap : camelGap x (front ++ a :: back) = camelGap x (front ++ [a]) := by
      cases front with
      | nil =>
        rw [List.nil_append, List.nil_append, camelGap, isCamelBoundary_eq_none x a h]
        rfl
      | cons y more =>
        have hnext : (more ++ a :: back).head? = (more ++ [a]).head? := by cases more <;> rfl
        simp only [List.cons_append, camelGap, hnext]
    rw [List.cons_append, spaceCamel_cons, hgap, ih, List.cons_append, spaceCamel_cons]
    simp only [List.cons_append, List.append_assoc]

/-- Separators are no small letters. -/
theorem isLower_of_isSeparator {c : Char} (h : isSeparator c = true) : c.isLower = false := by
  by_contra hlower
  have hletter : c.isAlphanum = true := by
    simp [Char.isAlphanum, Char.isAlpha, Bool.eq_true_of_not_eq_false hlower]
  rw [isSeparator_of_isAlphanum hletter] at h
  cases h

/-! ## The law of words -/

theorem nameWords_nil : nameWords [] = [] := rfl

/-- A name is divided at each of its separators. -/
theorem nameWords_append_separator {d : Char} (hd : isSeparator d = true) (front rest : List Char) :
    nameWords (front ++ d :: rest) = nameWords front ++ nameWords rest := by
  have hbehind : spaceCamel (d :: rest) = d :: spaceCamel rest := by
    rw [spaceCamel_cons]
    cases rest with
    | nil => rfl
    | cons b rest => rw [camelGap, isCamelBoundary_of_isSeparator (Or.inl hd)]; rfl
  rcases List.eq_nil_or_concat front with rfl | ⟨front, a, rfl⟩
  · rw [List.nil_append, nameWords, hbehind]
    exact pieces_append_cons hd [] _
  · have hgap : camelGap a (d :: rest) = [] := by
      rw [camelGap, isCamelBoundary_of_isSeparator (Or.inr hd)]
      rfl
    rw [List.concat_eq_append, List.append_assoc, List.singleton_append, nameWords,
      spaceCamel_append_cons front a (by simpa using isLower_of_isSeparator hd), hgap, hbehind]
    exact pieces_append_cons hd _ _

/-- The words of a name that is cut where words are divided. -/
theorem nameWords_append {front back : List Char} (h : Divides front back) :
    nameWords (front ++ back) = nameWords front ++ nameWords back := by
  rcases List.eq_nil_or_concat front with rfl | ⟨front, a, rfl⟩
  · rfl
  · rw [List.concat_eq_append] at h ⊢
    cases back with
    | nil => rw [List.append_nil, nameWords_nil, List.append_nil]
    | cons b rest =>
      rcases isDivision_eq_true.mp (divides_concat_cons.mp h) with ha | hb | hboundary
      · rw [List.append_assoc, List.singleton_append, nameWords_append_separator ha,
          nameWords_append_separator ha front [], nameWords_nil, List.append_nil]
      · rw [nameWords_append_separator hb, ← List.nil_append (b :: rest),
          nameWords_append_separator hb [] rest, nameWords_nil, List.nil_append]
      · -- What follows is a capital, so the boundaries in front of it are kept.
        have hcapital : b.isLower = false :=
          Bool.eq_false_of_not_eq_true
            (Char.not_isLower_of_isUpper (isCamelBoundary_iff.mp hboundary).1)
        have hgap : camelGap a (b :: rest) = [' '] := by rw [camelGap, if_pos hboundary]
        rw [List.append_assoc, List.singleton_append, nameWords,
          spaceCamel_append_cons front a (by simpa using hcapital), hgap]
        exact pieces_append_cons (by decide) _ _

/-! ## Taking names apart -/

/-- Within a word there is nothing in camel case. -/
theorem IsWord.spaceCamel_eq {w : List Char} (h : IsWord w) : spaceCamel w = w := by
  -- The end of a word need not be a word, as it may be empty: the induction is on the ends of `w`.
  have hpart : ∀ cs, cs <:+ w → spaceCamel cs = cs := by
    intro cs hcs
    induction cs with
    | nil => rfl
    | cons a cs ih =>
      have hgap : camelGap a cs = [] := by
        cases cs with
        | nil => rfl
        | cons b rest =>
          refine if_neg fun hboundary => ?_
          obtain ⟨hb, hsmall | ⟨ha, c, hc, hlower⟩⟩ := isCamelBoundary_iff.mp hboundary
          · have hpair : [a, b] <:+: w := (List.prefix_append [a, b] rest).isInfix.trans hcs.isInfix
            rw [h.behind_small a b hpair hsmall] at hb
            cases hb
          · obtain ⟨more, rfl⟩ := List.head?_eq_some_iff.mp hc
            have hthree : [a, b, c] <:+: w :=
              (List.prefix_append [a, b, c] more).isInfix.trans hcs.isInfix
            rw [h.behind_capitals a b c hthree ha hb] at hlower
            cases hlower
      rw [spaceCamel_cons, hgap, ih ((List.suffix_cons a cs).trans hcs), List.nil_append]
  exact hpart w List.suffix_rfl

/-- A word is its own word. -/
theorem nameWords_of_isWord {w : List Char} (h : IsWord w) : nameWords w = [w] := by
  rw [nameWords, h.spaceCamel_eq, pieces_eq_singleton h.ne_nil h.solid]

/-- A text is a word, if words are divided nowhere in it and it is not a separator. -/
theorem isWord_of_undivided {cs : List Char} (hne : cs ≠ [])
    (hsingle : ∀ d, cs = [d] → isSeparator d = false)
    (h : ∀ front a b rest, cs = front ++ a :: b :: rest → isDivision a b rest.head? = false) :
    IsWord cs := by
  have hpair : ∀ front a b rest, cs = front ++ a :: b :: rest → isSeparator a = false ∧
      isSeparator b = false ∧ ¬ isCamelBoundary a b rest.head? = true := by
    intro front a b rest hcs
    simpa using isDivision_eq_false.mp (h front a b rest hcs)
  refine ⟨hne, fun c hc => ?_, fun a b hinfix hsmall => ?_, fun a b c hinfix ha hb => ?_⟩
  · -- A character has a neighbour on one of its sides, unless it is alone.
    obtain ⟨front, rest, hcs⟩ := List.append_of_mem hc
    cases rest with
    | cons b rest => exact (hpair front c b rest hcs).1
    | nil =>
      rcases List.eq_nil_or_concat front with rfl | ⟨front, a, rfl⟩
      · exact hsingle c hcs
      · exact (hpair front a c [] (by simpa using hcs)).2.1
  · obtain ⟨front, rest, hcs⟩ := hinfix
    have hnone := (hpair front a b rest (by simpa using hcs.symm)).2.2
    by_contra hupper
    exact hnone (isCamelBoundary_iff.mpr ⟨Bool.eq_true_of_not_eq_false hupper, Or.inl hsmall⟩)
  · obtain ⟨front, rest, hcs⟩ := hinfix
    have hnone := (hpair front a b (c :: rest) (by simpa using hcs.symm)).2.2
    by_contra hlower
    exact hnone (isCamelBoundary_iff.mpr
      ⟨hb, Or.inr ⟨ha, c, rfl, Bool.eq_true_of_not_eq_false hlower⟩⟩)

/-- Names consist of words and separators: they are taken apart where words are divided. -/
theorem name_induction {motive : List Char → Prop} (nil : motive [])
    (separator : ∀ d, isSeparator d = true → motive [d]) (word : ∀ w, IsWord w → motive w)
    (divided : ∀ front back, Divides front back → motive front → motive back →
      motive (front ++ back)) (cs : List Char) : motive cs := by
  -- Both sides of a cut have a character, so they are shorter than the name.
  induction hlength : cs.length using Nat.strong_induction_on generalizing cs with
  | _ n ih =>
    by_cases hcut : ∃ front a b rest, cs = front ++ a :: b :: rest ∧
        isDivision a b rest.head? = true
    · obtain ⟨front, a, b, rest, rfl, hdivision⟩ := hcut
      simp only [List.length_append, List.length_cons] at hlength
      have hfront := ih _ (by simp; omega) (front ++ [a]) rfl
      have hback := ih _ (by simp; omega) (b :: rest) rfl
      simpa using divided _ _ (divides_concat_cons.mpr hdivision) hfront hback
    · by_cases hnil : cs = []
      · exact hnil ▸ nil
      by_cases hsingle : ∃ d, cs = [d] ∧ isSeparator d = true
      · obtain ⟨d, rfl, hd⟩ := hsingle
        exact separator d hd
      · exact word cs (isWord_of_undivided hnil
          (fun d hd => Bool.eq_false_of_not_eq_true fun h => hsingle ⟨d, hd, h⟩)
          fun front a b rest hcs =>
            Bool.eq_false_of_not_eq_true fun h => hcut ⟨front, a, b, rest, hcs, h⟩)

theorem nameWords_separator {d : Char} (hd : isSeparator d = true) : nameWords [d] = [] :=
  nameWords_append_separator hd [] []

/-- The words of a name are words. -/
theorem isWord_of_mem_nameWords {cs w : List Char} (h : w ∈ nameWords cs) : IsWord w := by
  induction cs using name_induction with
  | nil => cases h
  | separator d hd =>
    rw [nameWords_separator hd] at h
    cases h
  | word v hv =>
    rw [nameWords_of_isWord hv, List.mem_singleton] at h
    exact h ▸ hv
  | divided front back hdivides ihfront ihback =>
    rw [nameWords_append hdivides, List.mem_append] at h
    exact h.elim ihfront ihback

/-- Of a name nothing but its separators is lost. -/
theorem flatten_nameWords (cs : List Char) :
    (nameWords cs).flatten = cs.filter (!isSeparator ·) := by
  induction cs using name_induction with
  | nil => rfl
  | separator d hd =>
    rw [nameWords_separator hd]
    simp [hd]
  | word w hw =>
    rw [nameWords_of_isWord hw, List.flatten_singleton]
    exact (List.filter_eq_self.mpr fun c hc => by rw [hw.solid c hc]; rfl).symm
  | divided front back hdivides ihfront ihback =>
    rw [nameWords_append hdivides, List.flatten_append, ihfront, ihback, List.filter_append]

/-- Words with a blank between them are the words of the whole. -/
theorem nameWords_intercalate {ws : List (List Char)} (h : ∀ w ∈ ws, IsWord w) :
    nameWords ([' '].intercalate ws) = ws := by
  induction ws with
  | nil => rfl
  | cons w rest ih =>
    obtain ⟨hw, hrest⟩ := List.forall_mem_cons.mp h
    cases rest with
    | nil => rw [List.intercalate_singleton, nameWords_of_isWord hw]
    | cons next more =>
      rw [List.intercalate_cons_cons, List.append_assoc, List.singleton_append,
        nameWords_append_separator (by decide), nameWords_of_isWord hw, ih hrest]
      rfl

/-! ## Where words are not divided -/

/-- A character belongs to the word behind it, if words are not divided there. -/
theorem nameWords_cons_cons {a b : Char} {cs : List Char} (h : isDivision a b cs.head? = false) :
    ∃ w ws, nameWords (b :: cs) = (b :: w) :: ws ∧
      nameWords (a :: b :: cs) = (a :: b :: w) :: ws := by
  obtain ⟨ha, hb, hboundary⟩ := isDivision_eq_false.mp h
  rw [nameWords, nameWords, spaceCamel_cons a, camelGap, hboundary, spaceCamel_cons b]
  exact pieces_cons_cons _ ha hb

/-- What a further character in front of a name does: nothing, or it is a word of its own, or the
    first letter of the first word. -/
theorem nameWords_cons_cases (a : Char) (cs : List Char) :
    isSeparator a = true ∧ nameWords (a :: cs) = nameWords cs ∨
    isSeparator a = false ∧ (nameWords (a :: cs) = [a] :: nameWords cs ∨
      ∃ w ws, nameWords cs = w :: ws ∧ nameWords (a :: cs) = (a :: w) :: ws) := by
  cases ha : isSeparator a with
  | true => exact Or.inl ⟨rfl, nameWords_append_separator ha [] cs⟩
  | false =>
    refine Or.inr ⟨rfl, ?_⟩
    by_cases hdivides : Divides [a] cs
    · left
      have hword : nameWords [a] = [[a]] := by
        show pieces isSeparator [a] = [[a]]
        exact pieces_eq_singleton (by simp) (by simpa using ha)
      rw [← List.singleton_append, nameWords_append hdivides, hword]
      rfl
    · right
      cases cs with
      | nil => simp [Divides] at hdivides
      | cons b cs =>
        obtain ⟨w, ws, hwords⟩ := nameWords_cons_cons (by simpa [Divides] using hdivides)
        exact ⟨b :: w, ws, hwords⟩

/-- The words of a name cannot be parted where words are not divided. -/
theorem flatten_ne_of_append {a b : Char} {rest : List Char} (h : isDivision a b rest.head? = false)
    (front : List Char) {us vs : List (List Char)}
    (hwords : nameWords (front ++ a :: b :: rest) = us ++ vs) :
    us.flatten ≠ (front ++ [a]).filter (!isSeparator ·) := by
  induction front generalizing us with
  | nil =>
    have ha := (isDivision_eq_false.mp h).1
    obtain ⟨w, ws, _, hjoined⟩ := nameWords_cons_cons h
    rw [List.nil_append, hjoined] at hwords
    cases us with
    | nil => simp [ha]
    | cons u us =>
      obtain ⟨rfl, _⟩ := List.cons.inj hwords
      simp [ha]
  | cons x front ih =>
    rw [List.cons_append] at hwords
    rcases nameWords_cons_cases x (front ++ a :: b :: rest) with ⟨hx, hnone⟩ | ⟨hx, hfirst⟩
    · rw [hnone] at hwords
      simpa [hx] using ih hwords
    · -- The first word is among `us`, since the character in front belongs to it.
      cases us with
      | nil => simp [hx]
      | cons u us =>
        rcases hfirst with halone | ⟨w, ws, hbehind, hjoined⟩
        · rw [halone] at hwords
          obtain ⟨rfl, hmore⟩ := List.cons.inj hwords
          simpa [hx] using ih hmore
        · rw [hjoined] at hwords
          obtain ⟨rfl, hmore⟩ := List.cons.inj hwords
          have hne := @ih (w :: us) (by rw [hbehind, hmore]; rfl)
          simpa [hx] using hne

/-- The words of two names, one behind the other, are those of both exactly if words are divided
    between the names. -/
theorem nameWords_append_iff {front back : List Char} :
    nameWords (front ++ back) = nameWords front ++ nameWords back ↔ Divides front back := by
  refine ⟨fun hwords => ?_, nameWords_append⟩
  rcases List.eq_nil_or_concat front with rfl | ⟨front, a, rfl⟩
  · simp [Divides]
  · rw [List.concat_eq_append] at hwords ⊢
    cases back with
    | nil => simp [Divides]
    | cons b rest =>
      rw [divides_concat_cons]
      by_contra hnone
      rw [List.append_assoc, List.singleton_append] at hwords
      exact flatten_ne_of_append (Bool.eq_false_of_not_eq_true hnone) front hwords
        (flatten_nameWords _)

/-! ## Nothing is lost -/

theorem toList_words (name : String) : (words name).map String.toList = nameWords name.toList := by
  simp [words, Function.comp_def]

/-- The words of a name are words, and together they are the name without its separators.  A blank
    between the words leaves them as they are.  If the name goes on, then its words stay as they are
    and others come behind them exactly if words are divided there. -/
theorem words_lossless (name : String) :
    (∀ w ∈ words name, IsWord w.toList) ∧
    String.join (words name) = String.ofList (name.toList.filter (!isSeparator ·)) ∧
    words (" ".intercalate (words name)) = words name ∧
    ∀ more : String, words (name ++ more) = words name ++ words more ↔
      Divides name.toList more.toList := by
  have hwords : ∀ w ∈ nameWords name.toList, IsWord w := fun w hw => isWord_of_mem_nameWords hw
  refine ⟨fun w hw => ?_, ?_, ?_, fun more => ?_⟩
  · apply hwords
    rw [← toList_words]
    exact List.mem_map_of_mem hw
  · apply String.toList_inj.mp
    rw [String.toList_join, List.flatMap_def, toList_words, flatten_nameWords,
      String.toList_ofList]
  · have hblank : " ".toList = [' '] := by decide
    rw [words, String.toList_intercalate, toList_words, hblank, nameWords_intercalate hwords, words]
  · have hinjective : Function.Injective (List.map String.ofList) :=
      List.map_injective_iff.mpr fun _ _ => String.ofList_injective
    rw [words, words, words, ← List.map_append, hinjective.eq_iff, String.toList_append,
      nameWords_append_iff]

/-- A name in camel case, with capitals, a digit and a separator. -/
theorem words_lossless_mixedName :
    words "parseHTTPRequest_v2" = ["parse", "HTTP", "Request", "v2"] ∧
    "HTTP" ∈ words "parseHTTPRequest_v2" ∧ IsWord "HTTP".toList :=
  ⟨by decide +kernel, by decide +kernel,
    (words_lossless "parseHTTPRequest_v2").1 "HTTP" (by decide +kernel)⟩

end Swimlane.Text
