import Mathlib
import Swimlane.Proofs.Identifiers
import Swimlane.Proofs.LetterCase
import Swimlane.Proofs.Words

/-!
# Slugs are normal forms

A slug consists of words of small ASCII letters and digits, with one underscore between two words.
A text of this form that is cut somewhere, and then loses the underscore at its end, is of this form
again, or empty.  So the slug of a slug is the slug itself.  A slug is an XML id, also with a number
behind it, and the XML id of an XML id is the id itself.

## Key results

- `isSlug_joined`: the words of a text make up a slug
- `IsSlug.cut`: a slug can be cut
- `slugWithin_of_isSlug`: a slug that is short enough is its own slug
- `isIdentifier_xmlId`: every XML id is an identifier
-/

namespace Swimlane.Text

/-- The characters in the words of a slug: small ASCII letters and digits. -/
def isSlugLetter (c : Char) : Bool := c.isLower || c.isDigit

/-- One or more words of small letters and digits, with one underscore between two words. -/
inductive IsSlug : List Char → Prop
  | last {c : Char} (hc : isSlugLetter c = true) : IsSlug [c]
  | letter {c : Char} {cs : List Char} (hc : isSlugLetter c = true) (h : IsSlug cs) :
      IsSlug (c :: cs)
  | underscore {c : Char} {cs : List Char} (hc : isSlugLetter c = true) (h : IsSlug cs) :
      IsSlug (c :: '_' :: cs)

/-! ## Letters of slugs -/

/-- A letter of a slug is a small character, which is kept in slugs. -/
theorem isSmall_of_isSlugLetter {c : Char} (h : isSlugLetter c = true) :
    IsSmall c ∧ isSlugChar c = true ∧ c ≠ '_' := by
  have hascii : ∀ n < 128, isSlugLetter (Char.ofNat n) = true →
      lowerChar (Char.ofNat n) = [Char.ofNat n] ∧ Char.ofNat n ≠ 'Σ' ∧
      (Char.ofNat n).isUpper = false ∧ isSlugChar (Char.ofNat n) = true ∧
      Char.ofNat n ≠ '_' := by decide +kernel
  have hlow : c.toNat < 128 := by
    simp only [isSlugLetter, Char.isLower, Char.isDigit, Bool.or_eq_true, decide_eq_true_eq,
      Bool.and_eq_true, UInt32.le_iff_toNat_le] at h
    show c.val.toNat < 128
    rcases h with ⟨_, h⟩ | ⟨_, h⟩
    all_goals exact Nat.lt_of_le_of_lt h (by decide)
  rw [← Char.ofNat_toNat c] at h ⊢
  obtain ⟨hlower, hsigma, hupper, hchar, hunderscore⟩ := hascii _ hlow h
  exact ⟨⟨hlower, hsigma, hupper⟩, hchar, hunderscore⟩

/-- Of the characters that are kept in slugs the small ones are letters of slugs. -/
theorem isSlugLetter_of_isSmall {c : Char} (h : isSlugChar c = true) (hsmall : IsSmall c) :
    isSlugLetter c = true := by
  simpa [isSlugLetter, isSlugChar, Char.isAlphanum, Char.isAlpha, hsmall.ascii] using h

/-! ## Making slugs -/

theorem isSlug_word {w : List Char} (hne : w ≠ []) (hw : ∀ c ∈ w, isSlugLetter c = true) :
    IsSlug w := by
  induction w with
  | nil => exact absurd rfl hne
  | cons c w ih =>
    obtain ⟨hc, hw⟩ := List.forall_mem_cons.mp hw
    by_cases hnil : w = []
    · rw [hnil]
      exact .last hc
    · exact .letter hc (ih hnil hw)

/-- A word in front of a slug. -/
theorem IsSlug.behind_word {w cs : List Char} (hne : w ≠ [])
    (hw : ∀ c ∈ w, isSlugLetter c = true) (h : IsSlug cs) : IsSlug (w ++ '_' :: cs) := by
  induction w with
  | nil => exact absurd rfl hne
  | cons c w ih =>
    obtain ⟨hc, hw⟩ := List.forall_mem_cons.mp hw
    by_cases hnil : w = []
    · rw [hnil]
      exact .underscore hc h
    · exact .letter hc (ih hnil hw)

/-- Joined words are a slug, if there are some. -/
theorem isSlug_intercalate {words : List (List Char)} (hne : words ≠ [])
    (h : ∀ w ∈ words, w ≠ [] ∧ ∀ c ∈ w, isSlugLetter c = true) :
    IsSlug (['_'].intercalate words) := by
  induction words with
  | nil => exact absurd rfl hne
  | cons w rest ih =>
    obtain ⟨⟨hw, hletters⟩, hrest⟩ := List.forall_mem_cons.mp h
    cases rest with
    | nil =>
      rw [List.intercalate_singleton]
      exact isSlug_word hw hletters
    | cons next more =>
      rw [List.intercalate_cons_cons, List.append_assoc, List.singleton_append]
      exact (ih (List.cons_ne_nil _ _) hrest).behind_word hw hletters

/-- The words of a text make up a slug, if there are some. -/
theorem isSlug_joined (cs : List Char) : ['_'].intercalate (slugWords cs) = [] ∨
    IsSlug (['_'].intercalate (slugWords cs)) := by
  by_cases hnil : slugWords cs = []
  · rw [hnil]
    exact Or.inl rfl
  · refine Or.inr (isSlug_intercalate hnil fun w hw => ⟨ne_nil_of_mem_pieces hw, fun c hc => ?_⟩)
    obtain ⟨hmem, hchar⟩ := mem_pieces hw c hc
    exact isSlugLetter_of_isSmall (by simpa using hchar) (isSmall_of_mem_lower hmem)

/-! ## Cutting slugs -/

/-- What is trimmed at the end of a text does not reach beyond a character of another class. -/
theorem rdropWhile_cons {p : Char → Bool} (c : Char) (cs : List Char) :
    (c :: cs).rdropWhile p =
      if p c = true ∧ cs.rdropWhile p = [] then [] else c :: cs.rdropWhile p := by
  simp only [List.rdropWhile, List.reverse_cons, List.dropWhile_append, List.reverse_eq_nil_iff,
    List.isEmpty_iff]
  by_cases hrest : cs.reverse.dropWhile p = [] <;> by_cases hc : p c = true <;> simp [hrest, hc]

/-- A slug that is cut, and loses the underscore at its end, is a slug or empty. -/
theorem IsSlug.cut {cs : List Char} (h : IsSlug cs) (n : Nat) :
    (cs.take n).rdropWhile (· == '_') = [] ∨ IsSlug ((cs.take n).rdropWhile (· == '_')) := by
  -- A letter stays in front of whatever is left of the text behind it.
  have hfront : ∀ {c : Char} {rest : List Char}, isSlugLetter c = true →
      (c :: rest).rdropWhile (· == '_') = c :: rest.rdropWhile (· == '_') := by
    intro c rest hc
    have hne := (isSmall_of_isSlugLetter hc).2.2
    rw [rdropWhile_cons, if_neg (by simp [hne])]
  induction h generalizing n with
  | @last c hc =>
    cases n with
    | zero => exact Or.inl rfl
    | succ n =>
      rw [List.take_succ_cons, List.take_nil, hfront hc]
      exact Or.inr (.last hc)
  | @letter c cs hc h ih =>
    cases n with
    | zero => exact Or.inl rfl
    | succ n =>
      rw [List.take_succ_cons, hfront hc]
      rcases ih n with hnil | hslug
      · rw [hnil]
        exact Or.inr (.last hc)
      · exact Or.inr (.letter hc hslug)
  | @underscore c cs hc h ih =>
    cases n with
    | zero => exact Or.inl rfl
    | succ n =>
      rw [List.take_succ_cons, hfront hc]
      cases n with
      | zero => exact Or.inr (.last hc)
      | succ n =>
        rw [List.take_succ_cons, rdropWhile_cons]
        rcases ih n with hnil | hslug
        · rw [if_pos ⟨rfl, hnil⟩]
          exact Or.inr (.last hc)
        · have hne : (cs.take n).rdropWhile (· == '_') ≠ [] := by
            intro hnil
            rw [hnil] at hslug
            cases hslug
          rw [if_neg fun hboth => hne hboth.2]
          exact Or.inr (.underscore hc hslug)

/-- What a text is cut to within a limit. -/
theorem toList_slugWithin (limit : Nat) (s : String) : (slugWithin limit s).toList =
    ((['_'].intercalate (slugWords s.toList)).take limit).rdropWhile (· == '_') := by
  have hlimit : (if (limit : Int) < 0 then
      ((['_'].intercalate (slugWords s.toList)).length : Int) + limit
      else limit).toNat = limit := by
    rw [if_neg (by omega), Int.toNat_natCast]
  rw [slugWithin, String.toList_ofList, trimEndBy_eq_rdropWhile, takeWithin, hlimit]

/-- A slug within a limit is empty or a slug. -/
theorem isSlug_slugWithin (limit : Nat) (s : String) :
    (slugWithin limit s).toList = [] ∨ IsSlug (slugWithin limit s).toList := by
  rw [toList_slugWithin]
  rcases isSlug_joined s.toList with hnil | hslug
  · rw [hnil, List.take_nil]
    exact Or.inl rfl
  · exact hslug.cut limit

/-- A slug keeps to its limit. -/
theorem length_slugWithin_le (limit : Nat) (s : String) :
    (slugWithin limit s).toList.length ≤ limit := by
  rw [toList_slugWithin]
  exact (List.rdropWhile_prefix _ _).length_le.trans (List.length_take_le _ _)

/-! ## Slugs of slugs -/

namespace IsSlug

variable {cs : List Char}

theorem isSmall (h : IsSlug cs) : ∀ c ∈ cs, IsSmall c := by
  have hunderscore : IsSmall '_' := ⟨by decide, by decide, by decide⟩
  induction h with
  | last hc => simpa using (isSmall_of_isSlugLetter hc).1
  | letter hc _ ih => exact List.forall_mem_cons.mpr ⟨(isSmall_of_isSlugLetter hc).1, ih⟩
  | underscore hc _ ih =>
    exact List.forall_mem_cons.mpr
      ⟨(isSmall_of_isSlugLetter hc).1, List.forall_mem_cons.mpr ⟨hunderscore, ih⟩⟩

/-- A slug begins with a letter. -/
theorem exists_cons (h : IsSlug cs) : ∃ c rest, cs = c :: rest ∧ isSlugLetter c = true := by
  cases h with
  | last hc => exact ⟨_, _, rfl, hc⟩
  | letter hc _ => exact ⟨_, _, rfl, hc⟩
  | underscore hc _ => exact ⟨_, _, rfl, hc⟩

/-- A slug ends with a letter. -/
theorem exists_concat (h : IsSlug cs) : ∃ front c, cs = front ++ [c] ∧ isSlugLetter c = true := by
  induction h with
  | @last c hc => exact ⟨[], c, rfl, hc⟩
  | @letter c _ _ _ ih =>
    obtain ⟨front, d, rfl, hd⟩ := ih
    exact ⟨c :: front, d, rfl, hd⟩
  | @underscore c _ _ _ ih =>
    obtain ⟨front, d, rfl, hd⟩ := ih
    exact ⟨c :: '_' :: front, d, rfl, hd⟩

theorem isXmlIdChar (h : IsSlug cs) : ∀ c ∈ cs, isXmlIdChar c = true := by
  have hletter : ∀ {c : Char}, isSlugLetter c = true → Text.isXmlIdChar c = true := by
    intro c hc
    have hchar : c.isAlphanum = true := (isSmall_of_isSlugLetter hc).2.1
    rw [Text.isXmlIdChar, hchar, Bool.true_or]
  induction h with
  | last hc => simpa using hletter hc
  | letter hc _ ih => exact List.forall_mem_cons.mpr ⟨hletter hc, ih⟩
  | underscore hc _ ih =>
    exact List.forall_mem_cons.mpr ⟨hletter hc, List.forall_mem_cons.mpr ⟨rfl, ih⟩⟩

/-- A slug is an identifier. -/
theorem isIdentifier {s : String} (h : IsSlug s.toList) : IsIdentifier s := by
  obtain ⟨c, rest, hs, hc⟩ := h.exists_cons
  obtain ⟨front, d, he, hd⟩ := h.exists_concat
  exact ⟨h.isXmlIdChar, ⟨c, rest, hs, (isSmall_of_isSlugLetter hc).2.2⟩,
    ⟨front, d, he, (isSmall_of_isSlugLetter hd).2.2⟩⟩

/-- The pieces of a slug are its words. -/
theorem intercalate_pieces (h : IsSlug cs) :
    ['_'].intercalate (pieces (!isSlugChar ·) cs) = cs := by
  have hkept : ∀ {c : Char}, isSlugLetter c = true → (!isSlugChar c) = false := fun hc => by
    rw [(isSmall_of_isSlugLetter hc).2.1]
    rfl
  have hword : ∀ {c : Char}, isSlugLetter c = true → pieces (!isSlugChar ·) [c] = [[c]] :=
    fun hc => pieces_eq_singleton (by simp) (by simpa using hkept hc)
  induction h with
  | @last c hc => rw [hword hc, List.intercalate_singleton]
  | @letter c cs hc h ih =>
    -- The letter goes to the front of the first word.
    obtain ⟨d, rest, rfl, hd⟩ := h.exists_cons
    obtain ⟨piece, more, hbehind, hpieces⟩ :=
      pieces_cons_cons (p := (!isSlugChar ·)) rest (hkept hc) (hkept hd)
    rw [hbehind] at ih
    rw [hpieces, List.intercalate_cons_cons_left, ih]
  | @underscore c cs hc h ih =>
    have hne : pieces (!isSlugChar ·) cs ≠ [] := by
      obtain ⟨d, rest, rfl, hd⟩ := h.exists_cons
      obtain ⟨piece, more, hpieces⟩ := pieces_cons (p := (!isSlugChar ·)) rest (hkept hd)
      rw [hpieces]
      exact List.cons_ne_nil _ _
    obtain ⟨next, more, hpieces⟩ := List.exists_cons_of_ne_nil hne
    have hsplit : pieces (!isSlugChar ·) (c :: '_' :: cs) =
        pieces (!isSlugChar ·) [c] ++ pieces (!isSlugChar ·) cs :=
      pieces_append_cons (by decide) [c] cs
    rw [hpieces] at ih
    rw [hsplit, hword hc, hpieces, List.singleton_append, List.intercalate_cons_cons, ih]
    rfl

end IsSlug

/-- A slug that is short enough is its own slug. -/
theorem slugWithin_of_isSlug {limit : Nat} {s : String} (h : IsSlug s.toList)
    (hlength : s.toList.length ≤ limit) : slugWithin limit s = s := by
  obtain ⟨front, d, hend, hd⟩ := h.exists_concat
  have hkept : s.toList.rdropWhile (· == '_') = s.toList := by
    rw [hend, List.rdropWhile_concat_neg]
    simpa using (isSmall_of_isSlugLetter hd).2.2
  apply String.toList_inj.mp
  rw [toList_slugWithin, slugWords, lower_of_isSmall h.isSmall, h.intercalate_pieces,
    List.take_of_length_le hlength, hkept]

/-! ## XML ids of XML ids -/

/-- Squashing leaves nothing but XML id characters. -/
theorem isXmlIdChar_of_mem_squash {inRun : Bool} {cs : List Char} {c : Char}
    (h : c ∈ squash inRun cs) : isXmlIdChar c = true := by
  induction cs generalizing inRun with
  | nil => cases h
  | cons d cs ih =>
    rw [squash] at h
    split at h
    · rename_i hd
      rcases List.mem_cons.mp h with rfl | h
      · exact hd
      · exact ih h
    · split at h
      · exact ih h
      · rcases List.mem_cons.mp h with rfl | h
        · rfl
        · exact ih h

/-- What is left of a text when it is trimmed has ends of other classes. -/
theorem ends_of_trimBy {p : Char → Bool} {cs : List Char} (hne : trimBy p cs ≠ []) :
    (∃ c rest, trimBy p cs = c :: rest ∧ p c = false) ∧
      ∃ front c, trimBy p cs = front ++ [c] ∧ p c = false := by
  have htrim : trimBy p cs = (cs.dropWhile p).rdropWhile p := rfl
  rw [htrim] at hne ⊢
  refine ⟨?_, _, _, (List.dropLast_append_getLast hne).symm, ?_⟩
  · obtain ⟨c, rest, hcons⟩ := List.exists_cons_of_ne_nil hne
    have hfront := List.rdropWhile_prefix p (cs.dropWhile p)
    rw [hcons] at hfront
    obtain ⟨behind, hdrop⟩ := hfront
    have hfirst : c ∈ (cs.dropWhile p).head? := by
      rw [← hdrop]
      rfl
    exact ⟨c, rest, hcons, eq_false_of_mem_head?_dropWhile hfirst⟩
  · simpa using List.rdropWhile_last_not p _ hne

/-- Every XML id is an identifier. -/
theorem isIdentifier_xmlId (s : String) : IsIdentifier (xmlId s) := by
  unfold xmlId xmlIdChars
  split
  · have hlist : (String.ofList ['x']).toList = ['x'] := String.toList_ofList
    exact ⟨by simp [hlist, isXmlIdChar], ⟨'x', [], hlist, by decide⟩, ⟨[], 'x', hlist, by decide⟩⟩
  · rename_i hne
    obtain ⟨⟨c, rest, hs, hc⟩, front, d, he, hd⟩ := ends_of_trimBy hne
    refine ⟨fun c hc => ?_, ⟨c, rest, ?_, by simpa using hc⟩, ⟨front, d, ?_, by simpa using hd⟩⟩
    · rw [String.toList_ofList] at hc
      exact isXmlIdChar_of_mem_squash (mem_of_mem_trimBy hc)
    · rw [String.toList_ofList, hs]
    · rw [String.toList_ofList, he]

/-! ## Normal forms -/

/-- A slug within a limit is empty, or it has the form of a slug, keeps to the limit and is its own
    XML id, also with a number behind it.  Making a slug again within the limit changes nothing.
    Every XML id is a text of XML id characters that is not empty and is its own XML id. -/
theorem slugs_normal (limit : Nat) (s v : String) :
    (slugWithin limit s = "" ∨ IsSlug (slugWithin limit s).toList ∧
      xmlId (slugWithin limit s) = slugWithin limit s ∧
      ∀ n : Nat, xmlId s!"{slugWithin limit s}_{n}" = s!"{slugWithin limit s}_{n}") ∧
    (slugWithin limit s).length ≤ limit ∧
    slugWithin limit (slugWithin limit s) = slugWithin limit s ∧
    xmlId v ≠ "" ∧ (xmlId v).toList.all isXmlIdChar = true ∧ xmlId (xmlId v) = xmlId v := by
  have hid := isIdentifier_xmlId v
  have hlength : (slugWithin limit s).toList.length ≤ limit := length_slugWithin_le limit s
  refine ⟨?_, by rwa [← String.length_toList], ?_, hid.ne_empty,
    List.all_eq_true.mpr hid.chars, xmlId_of_isIdentifier hid⟩
  · rcases isSlug_slugWithin limit s with hnil | hslug
    · exact Or.inl (String.toList_eq_nil_iff.mp hnil)
    · have hslugId := hslug.isIdentifier
      exact Or.inr ⟨hslug, xmlId_of_isIdentifier hslugId, fun n =>
        xmlId_of_isIdentifier (isIdentifier_numbered hslugId n)⟩
  · rcases isSlug_slugWithin limit s with hnil | hslug
    · -- Nothing is made of nothing.
      apply String.toList_inj.mp
      rw [toList_slugWithin, hnil, slugWords]
      simp [lower, lowerAfter, pieces]
    · exact slugWithin_of_isSlug hslug hlength

end Swimlane.Text
