import Mathlib
import Swimlane.Text.Identifier
import Swimlane.Proofs.FreshNames

/-!
# Slugs are XML ids

An identifier is made of ASCII letters, digits and underscores, with no underscore at its ends.
The slug of a text that starts with a small letter is one, numbers behind it change nothing, and
an identifier is its own XML id.

## Key results

- `slug_cons`: the slug of a text that starts with a small letter starts with that letter
- `isIdentifier_slug`: the slug of a text that starts with a small letter is an identifier
- `isIdentifier_fresh`: a fresh name for an identifier is an identifier
- `xmlId_of_isIdentifier`: an identifier is its own XML id
-/

namespace Swimlane.Text

/-- A text of XML id characters, with no underscore at its ends. -/
structure IsIdentifier (s : String) : Prop where
  chars : ∀ c ∈ s.toList, isXmlIdChar c = true
  starts : ∃ c rest, s.toList = c :: rest ∧ c ≠ '_'
  ends : ∃ front c, s.toList = front ++ [c] ∧ c ≠ '_'

/-- An identifier is not empty. -/
theorem IsIdentifier.ne_empty {s : String} (h : IsIdentifier s) : s ≠ "" := by
  rintro rfl
  obtain ⟨c, rest, hs, _⟩ := h.starts
  cases hs

/-! ## XML ids -/

/-- Nothing is squashed in a text of XML id characters. -/
theorem squash_eq_self (cs : List Char) (h : ∀ c ∈ cs, isXmlIdChar c = true) :
    squash false cs = cs := by
  induction cs with
  | nil => rfl
  | cons c cs ih =>
    rw [squash, if_pos (h c List.mem_cons_self), ih fun d hd => h d (List.mem_cons_of_mem _ hd)]

/-- Nothing is trimmed from a text whose ends are not of the class. -/
theorem trimBy_eq_self {p : Char → Bool} {cs front rest : List Char} {c d : Char}
    (hs : cs = c :: rest) (hc : p c = false) (he : cs = front ++ [d]) (hd : p d = false) :
    trimBy p cs = cs := by
  have hdrop : cs.dropWhile p = cs := by rw [hs, List.dropWhile_cons, hc]; rfl
  rw [trimBy, hdrop, he, List.reverse_append, List.reverse_singleton, List.singleton_append,
    List.dropWhile_cons, hd]
  simp

/-- An identifier is its own XML id. -/
theorem xmlId_of_isIdentifier {s : String} (h : IsIdentifier s) : xmlId s = s := by
  obtain ⟨c, rest, hs, hc⟩ := h.starts
  obtain ⟨front, d, he, hd⟩ := h.ends
  have htrim : trimBy (· == '_') (squash false s.toList) = s.toList := by
    rw [squash_eq_self _ h.chars]
    exact trimBy_eq_self hs (by simpa using hc) he (by simpa using hd)
  rw [xmlId, xmlIdChars, htrim]
  split
  · rename_i hnil
    rw [hs] at hnil; cases hnil
  · exact String.ofList_toList

/-! ## Pieces -/

section Pieces

variable {p : Char → Bool}

/-- A text is divided at each of its dividing characters. -/
theorem pieces_append_cons {d : Char} (hd : p d = true) (front rest : List Char) :
    pieces p (front ++ d :: rest) = pieces p front ++ pieces p rest := by
  rw [pieces, List.splitOnP_append_cons front rest hd, List.filter_append]
  rfl

theorem ne_nil_of_mem_pieces {cs piece : List Char} (h : piece ∈ pieces p cs) : piece ≠ [] := by
  rw [pieces, List.mem_filter] at h
  simpa using h.2

/-- A text without dividing characters is one piece. -/
theorem pieces_eq_singleton {cs : List Char} (hne : cs ≠ []) (h : ∀ c ∈ cs, p c = false) :
    pieces p cs = [cs] := by
  rw [pieces, List.splitOnP_eq_singleton h]
  simp [hne]

/-- The pieces of a text are made of its characters, and hold no dividing one. -/
theorem mem_pieces {cs piece : List Char} (h : piece ∈ pieces p cs) :
    ∀ c ∈ piece, c ∈ cs ∧ p c = false := by
  rw [pieces, List.mem_filter] at h
  replace h := h.1
  induction cs generalizing piece with
  | nil => simp at h; simp [h]
  | cons d cs ih =>
    have hcs : ∀ part ∈ cs.splitOnP p, ∀ c ∈ part, c ∈ d :: cs ∧ p c = false := fun part hp c hc =>
      ⟨List.mem_cons_of_mem _ (ih hp c hc).1, (ih hp c hc).2⟩
    rw [List.splitOnP_cons_eq_if_modifyHead] at h
    by_cases hd : p d = true
    · rw [if_pos hd, List.mem_cons] at h
      rcases h with rfl | h
      · simp
      · exact hcs piece h
    · rw [if_neg hd] at h
      cases hsplit : cs.splitOnP p with
      | nil => exact absurd hsplit (List.splitOnP_ne_nil p cs)
      | cons first more =>
        rw [hsplit] at hcs
        rw [hsplit, List.modifyHead_cons, List.mem_cons] at h
        rcases h with rfl | h
        · intro c hc
          rcases List.mem_cons.mp hc with rfl | hc
          · exact ⟨List.mem_cons_self, by simpa using hd⟩
          · exact hcs first List.mem_cons_self c hc
        · exact hcs piece (List.mem_cons_of_mem _ h)

/-- The first piece of a text that starts with no dividing character starts like the text. -/
theorem pieces_cons {c : Char} (cs : List Char) (hc : p c = false) :
    ∃ piece more, pieces p (c :: cs) = (c :: piece) :: more := by
  cases hsplit : cs.splitOnP p with
  | nil => exact absurd hsplit (List.splitOnP_ne_nil p cs)
  | cons first more =>
    refine ⟨first, more.filter (!·.isEmpty), ?_⟩
    rw [pieces, List.splitOnP_cons_eq_if_modifyHead, hsplit]
    simp [hc]

/-- A character in front of a piece belongs to the piece. -/
theorem pieces_cons_cons {b c : Char} (cs : List Char) (hb : p b = false) (hc : p c = false) :
    ∃ piece more, pieces p (c :: cs) = (c :: piece) :: more ∧
      pieces p (b :: c :: cs) = (b :: c :: piece) :: more := by
  obtain ⟨first, more, hsplit⟩ := List.exists_cons_of_ne_nil (List.splitOnP_ne_nil p cs)
  refine ⟨first, more.filter (!·.isEmpty), ?_, ?_⟩
  · rw [pieces, List.splitOnP_cons_eq_if_modifyHead, hsplit]
    simp [hc]
  · rw [pieces, List.splitOnP_cons_eq_if_modifyHead, List.splitOnP_cons_eq_if_modifyHead, hsplit]
    simp [hb, hc]

end Pieces

/-! ## Slugs -/

/-- What is in a joined list is in one of its parts, or is what joins them. -/
theorem mem_intercalate {sep : List Char} {parts : List (List Char)} {c : Char}
    (h : c ∈ sep.intercalate parts) : c ∈ sep ∨ ∃ part ∈ parts, c ∈ part := by
  induction parts with
  | nil => simp at h
  | cons part parts ih =>
    cases parts with
    | nil => exact Or.inr ⟨part, List.mem_cons_self, by simpa using h⟩
    | cons next more =>
      rw [List.intercalate_cons_cons, List.mem_append, List.mem_append] at h
      rcases h with (h | h) | h
      · exact Or.inr ⟨part, List.mem_cons_self, h⟩
      · exact Or.inl h
      · rcases ih h with h | ⟨q, hq, h⟩
        · exact Or.inl h
        · exact Or.inr ⟨q, List.mem_cons_of_mem _ hq, h⟩

/-- Trimming at the end is dropping from the right. -/
theorem trimEndBy_eq_rdropWhile (p : Char → Bool) (cs : List Char) :
    trimEndBy p cs = cs.rdropWhile p := rfl

/-- The characters of a joined slug are XML id characters. -/
theorem isXmlIdChar_of_mem_joined {cs : List Char} {c : Char}
    (h : c ∈ ['_'].intercalate (slugWords cs)) : isXmlIdChar c = true := by
  rcases mem_intercalate h with h | ⟨word, hw, h⟩
  · rw [List.mem_singleton.mp h]; rfl
  · have := (mem_pieces hw c h).2
    simp only [isSlugChar, Bool.not_eq_eq_eq_not, Bool.not_false] at this
    rw [isXmlIdChar, this, Bool.true_or]

/-- A small ASCII letter is its own lower case. -/
theorem lowerChar_of_isLower {c : Char} (hc : c.isLower = true) : lowerChar c = [c] := by
  have hrange : 97 ≤ c.toNat ∧ c.toNat ≤ 122 := by
    simp only [Char.isLower, Bool.and_eq_true, decide_eq_true_eq, ge_iff_le,
      UInt32.le_iff_toNat_le] at hc
    exact hc
  have hlow : c.toLower = c := by
    rw [Char.toLower]
    simp only [UInt32.le_iff_toNat_le, ge_iff_le]
    rw [dif_neg]
    rintro ⟨_, hz⟩
    have : c.toNat ≤ 90 := hz
    omega
  rw [lowerChar, if_pos (by omega), hlow]

/-- The joined slug of a text that starts with a small letter starts with that letter. -/
theorem joined_cons {c : Char} (cs : List Char) (hc : c.isLower = true) :
    ∃ rest, ['_'].intercalate (slugWords (c :: cs)) = c :: rest := by
  have hlower : lower (c :: cs) = c :: lowerAfter [c] cs := by
    have hsigma : c ≠ 'Σ' := by rintro rfl; cases hc
    rw [lower, lowerAfter, if_neg hsigma, lowerChar_of_isLower hc, List.singleton_append]
  have hslug : isSlugChar c = true := by
    simp [isSlugChar, Char.isAlphanum, Char.isAlpha, hc]
  obtain ⟨piece, more, hp⟩ := pieces_cons (p := (!isSlugChar ·)) (lowerAfter [c] cs)
    (show (!isSlugChar c) = false by rw [hslug]; rfl)
  rw [slugWords, hlower, hp]
  exact ⟨_, List.intercalate_cons_cons_left⟩

/-- The slug of a text that starts with a small letter: what is left of the first forty characters
    of its words. -/
theorem toList_slug {s : String} {c : Char} {cs rest : List Char} (hs : s.toList = c :: cs)
    (hj : ['_'].intercalate (slugWords (c :: cs)) = c :: rest) :
    (slug s).toList = (c :: rest.take 39).rdropWhile (· == '_') := by
  have hcut : takeWithin slugLimit (c :: rest) = c :: rest.take 39 := rfl
  rw [slug, slugWithin, hs, hj, hcut, trimEndBy_eq_rdropWhile, String.toList_ofList]

/-- The slug of a text that starts with a small letter starts with that letter. -/
theorem slug_cons {s : String} {c : Char} {cs : List Char} (hs : s.toList = c :: cs)
    (hc : c.isLower = true) : ∃ rest, (slug s).toList = c :: rest := by
  have hne : c ≠ '_' := by rintro rfl; cases hc
  obtain ⟨rest, hj⟩ := joined_cons cs hc
  rw [toList_slug hs hj]
  have hnil : (c :: rest.take 39).rdropWhile (· == '_') ≠ [] := by
    intro h
    have := List.rdropWhile_eq_nil_iff.mp h c List.mem_cons_self
    exact hne (by simpa using this)
  obtain ⟨d, front, hd⟩ := List.exists_cons_of_ne_nil hnil
  have hpre := List.rdropWhile_prefix (· == '_') (c :: rest.take 39)
  rw [hd] at hpre
  exact ⟨front, by rw [hd, (List.cons_prefix_cons.mp hpre).1]⟩

/-- The slug of a text that starts with a small letter is an identifier. -/
theorem isIdentifier_slug {s : String} {c : Char} {cs : List Char} (hs : s.toList = c :: cs)
    (hc : c.isLower = true) : IsIdentifier (slug s) := by
  have hne : c ≠ '_' := by rintro rfl; cases hc
  obtain ⟨rest, hj⟩ := joined_cons cs hc
  obtain ⟨front, hfront⟩ := slug_cons hs hc
  have hslug := toList_slug hs hj
  refine ⟨fun d hd => ?_, ⟨c, front, hfront, hne⟩, ?_⟩
  · have hmem : d ∈ ['_'].intercalate (slugWords (c :: cs)) := by
      rw [hj]
      have := (List.rdropWhile_prefix (· == '_') (c :: rest.take 39)).subset (hslug ▸ hd)
      rcases List.mem_cons.mp this with rfl | h
      · exact List.mem_cons_self
      · exact List.mem_cons_of_mem _ (List.mem_of_mem_take h)
    exact isXmlIdChar_of_mem_joined hmem
  · have hnil : (c :: rest.take 39).rdropWhile (· == '_') ≠ [] := by
      rw [← hslug, hfront]
      exact List.cons_ne_nil _ _
    refine ⟨_, _, hslug.trans (List.dropLast_append_getLast hnil).symm, ?_⟩
    simpa using List.rdropWhile_last_not (· == '_') _ hnil

/-- A number behind an identifier leaves it an identifier. -/
theorem isIdentifier_numbered {base : String} (h : IsIdentifier base) (n : Nat) :
    IsIdentifier s!"{base}_{n}" := by
  have hlist : (s!"{base}_{n}").toList = base.toList ++ '_' :: Nat.toDigits 10 n := by
    simp [toString, Nat.toList_repr]
  obtain ⟨c, rest, hs, hc⟩ := h.starts
  have hdigit : ∀ d ∈ Nat.toDigits 10 n, d.isDigit = true := fun d hd =>
    Nat.isDigit_of_mem_toDigits (by omega) (by omega) hd
  refine ⟨fun d hd => ?_, ⟨c, _, by rw [hlist, hs, List.cons_append], hc⟩, ?_⟩
  · rw [hlist, List.mem_append, List.mem_cons] at hd
    rcases hd with hd | rfl | hd
    · exact h.chars d hd
    · rfl
    · simp [isXmlIdChar, Char.isAlphanum, hdigit d hd]
  · have hne : Nat.toDigits 10 n ≠ [] := Nat.toDigits_ne_nil
    refine ⟨base.toList ++ '_' :: (Nat.toDigits 10 n).dropLast, (Nat.toDigits 10 n).getLast hne,
      ?_, ?_⟩
    · rw [hlist, List.append_assoc, List.cons_append, List.dropLast_append_getLast]
    · intro heq
      have := hdigit _ (List.getLast_mem hne)
      rw [heq] at this
      cases this

/-- A fresh name for an identifier is an identifier. -/
theorem isIdentifier_fresh {base : String} (h : IsIdentifier base) (taken : List String) :
    IsIdentifier (fresh base taken) := by
  rcases fresh_eq base taken with heq | ⟨n, heq⟩
  · rw [heq]; exact h
  · rw [heq]; exact isIdentifier_numbered h n

end Swimlane.Text
