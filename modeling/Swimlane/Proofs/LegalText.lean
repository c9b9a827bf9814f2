import Mathlib
import Swimlane.Bpmn.Expression
import Swimlane.Proofs.Labels
import Swimlane.Proofs.LetterCase
import Swimlane.Proofs.Words

/-!
# Legal characters

XML 1.0 has no place for most control characters and for two other code points, not even as
entities.  A text may hold them nevertheless.  What is made of a text, by trimming it, by changing
its case, by cutting it into words or by replacing its placeholders, has no illegal characters but
those of the text.

## Key results

- `isXmlChar_iff`: which characters are legal
- `isXmlChar_of_isWordChar`: word characters are
- `Within.lower`, `Within.label`: letter case and labels add no illegal characters
- `within_conditionExpression`, `within_assigneeExpression`: neither do expressions
-/

namespace Swimlane.Text

/-- The characters of XML documents. -/
def xmlRanges : List (Nat × Nat) :=
  [(9, 10), (13, 13), (0x20, 0xd7ff), (0xe000, 0xfffd), (0x10000, 0x10ffff)]

/-- Whether a character may stand in an XML document. -/
def isXmlChar (c : Char) : Bool := inRanges c.toNat xmlRanges

/-- White space apart, all characters from the blank on are legal but two. -/
theorem isXmlChar_iff {c : Char} : isXmlChar c = true ↔
    c.toNat = 9 ∨ c.toNat = 10 ∨ c.toNat = 13 ∨
      (32 ≤ c.toNat ∧ c.toNat ≠ 0xfffe ∧ c.toNat ≠ 0xffff) := by
  have hvalid := c.valid
  have hn : c.toNat = c.val.toNat := rfl
  simp only [isXmlChar, xmlRanges, inRanges]
  rw [UInt32.isValidChar, Nat.isValidChar] at hvalid
  split_ifs <;> simp <;> omega

theorem isXmlChar_of_le {c : Char} (hlow : 32 ≤ c.toNat) (hhigh : c.toNat < 0xfffe) :
    isXmlChar c = true := isXmlChar_iff.mpr (by omega)

/-- Letters and digits in ASCII are legal. -/
theorem isXmlChar_of_isAlphanum {c : Char} (h : c.isAlphanum = true) : isXmlChar c = true := by
  simp only [Char.isAlphanum, Char.isAlpha, Char.isUpper, Char.isLower, Char.isDigit,
    Bool.or_eq_true, Bool.and_eq_true, decide_eq_true_eq, ge_iff_le, UInt32.le_iff_toNat_le] at h
  have hn : c.toNat = c.val.toNat := rfl
  apply isXmlChar_of_le
  all_goals simp at h; omega

theorem isXmlChar_of_isXmlIdChar {c : Char} (h : isXmlIdChar c = true) : isXmlChar c = true := by
  simp only [isXmlIdChar, Bool.or_eq_true, beq_iff_eq] at h
  rcases h with h | rfl
  · exact isXmlChar_of_isAlphanum h
  · decide

/-- The letters and numbers beyond ASCII are legal. -/
theorem wordRanges_xml : (wordRanges.all fun range => Nat.ble 32 range.1 &&
    (Nat.blt range.2 0xfffe || Nat.blt 0xffff range.1)) = true := by
  decide +kernel

/-- Word characters are legal. -/
theorem isXmlChar_of_isWordChar {c : Char} (h : isWordChar c = true) : isXmlChar c = true := by
  simp only [isWordChar, Bool.or_eq_true, Bool.and_eq_true, beq_iff_eq] at h
  rcases h with (h | rfl) | ⟨_, h⟩
  · exact isXmlChar_of_isAlphanum h
  · decide
  · obtain ⟨range, hrange, hlow, hhigh⟩ := exists_of_inRanges h
    have hxml := List.all_eq_true.mp wordRanges_xml range hrange
    simp only [Bool.and_eq_true, Bool.or_eq_true, Nat.ble_eq, Nat.blt_eq] at hxml
    exact isXmlChar_iff.mpr (by omega)

/-! ## Texts -/

/-- A text has no illegal characters but those of another text. -/
def Within (source cs : List Char) : Prop := ∀ c ∈ cs, isXmlChar c = true ∨ c ∈ source

variable {source cs ds : List Char}

theorem within_nil : Within source [] := fun _ h => absurd h List.not_mem_nil

theorem within_append : Within source (cs ++ ds) ↔ Within source cs ∧ Within source ds :=
  List.forall_mem_append

theorem within_cons {c : Char} (hc : isXmlChar c = true) :
    Within source (c :: cs) ↔ Within source cs := by
  simp [Within, hc]

/-- A text whose characters are all legal. -/
theorem Within.of_all (h : cs.all isXmlChar = true) : Within source cs :=
  fun c hc => Or.inl (List.all_eq_true.mp h c hc)

theorem within_nil_iff : Within [] cs ↔ cs.all isXmlChar = true := by
  simp [Within, List.all_eq_true]

/-- A part of a text. -/
theorem Within.of_subset (h : Within source cs) (hsub : ∀ c ∈ ds, c ∈ cs) : Within source ds :=
  fun c hc => h c (hsub c hc)

theorem Within.trimBy (p : Char → Bool) (h : Within source cs) : Within source (trimBy p cs) :=
  h.of_subset fun _ => mem_of_mem_trimBy

theorem Within.pieces {p : Char → Bool} (h : Within source cs) {piece : List Char}
    (hpiece : piece ∈ pieces p cs) : Within source piece :=
  h.of_subset fun c hc => (mem_pieces hpiece c hc).1

theorem within_intercalate {sep : List Char} {parts : List (List Char)} (hsep : Within source sep)
    (hparts : ∀ part ∈ parts, Within source part) : Within source (sep.intercalate parts) := by
  intro c hc
  rcases mem_intercalate hc with hc | ⟨part, hpart, hc⟩
  · exact hsep c hc
  · exact hparts part hpart c hc

/-! ## Letter case -/

/-- Whether a run leads to legal characters only. -/
def CaseRun.isXml (r : CaseRun) : Bool :=
  Nat.ble 32 r.low && (Nat.blt r.high 0xd800 || Nat.blt 0xdfff r.low && Nat.blt r.high 0xfffe ||
    Nat.blt 0xffff r.low && Nat.blt r.high 0x110000)

/-- Such a table leads to legal characters, and leaves all others. -/
theorem CaseRun.apply_xml {table : List CaseRun} (h : table.all CaseRun.isXml = true) (c : Char) :
    CaseRun.apply table c = c ∨ isXmlChar (CaseRun.apply table c) = true := by
  rw [CaseRun.apply]
  split
  · rename_i r hfind
    right
    have hxml := List.all_eq_true.mp h r (List.mem_of_find?_eq_some hfind)
    simp only [CaseRun.isXml, Bool.and_eq_true, Bool.or_eq_true, Nat.ble_eq, Nat.blt_eq] at hxml
    have hcovers : r.covers c.toNat = true := by simpa using List.find?_some hfind
    obtain ⟨hlow, hhigh, _⟩ := CaseRun.le_of_covers hcovers (by omega)
    have hvalid : ((c.toNat : Int) + r.shift).toNat.isValidChar := by
      unfold Nat.isValidChar
      omega
    rw [isXmlChar_iff, Char.toNat_ofNat, if_pos hvalid]
    omega
  · exact Or.inl rfl

theorem lowerRuns_xml : lowerRuns.all CaseRun.isXml = true := by decide +kernel

theorem upperRuns_xml : upperRuns.all CaseRun.isXml = true := by decide +kernel

/-- The letters with several capitals have legal ones. -/
theorem upperExpansions_xml :
    (upperExpansions.all fun e => e.2.all fun n => isXmlChar (Char.ofNat n)) = true := by
  decide +kernel

/-- The other case of a character in ASCII is the character itself, or legal. -/
theorem ascii_xml : ∀ n < 128,
    ((Char.ofNat n).toLower = Char.ofNat n ∨ isXmlChar (Char.ofNat n).toLower = true) ∧
      ((Char.ofNat n).toUpper = Char.ofNat n ∨ isXmlChar (Char.ofNat n).toUpper = true) := by
  decide +kernel

/-- The lower case of a character is the character itself, or legal. -/
theorem mem_lowerChar {c d : Char} (h : d ∈ lowerChar c) : d = c ∨ isXmlChar d = true := by
  rw [lowerChar] at h
  split at h
  · rename_i hascii
    have hcase := (ascii_xml c.toNat hascii).1
    rwa [Char.ofNat_toNat, ← List.mem_singleton.mp h] at hcase
  · split at h
    · right
      simp only [List.mem_cons, List.not_mem_nil, or_false] at h
      rcases h with rfl | rfl <;> decide
    · rw [List.mem_singleton.mp h]
      exact CaseRun.apply_xml lowerRuns_xml c

/-- The upper case of a character is the character itself, or legal. -/
theorem mem_upperChar {c d : Char} (h : d ∈ upperChar c) : d = c ∨ isXmlChar d = true := by
  rw [upperChar] at h
  split at h
  · rename_i hascii
    have hcase := (ascii_xml c.toNat hascii).2
    rwa [Char.ofNat_toNat, ← List.mem_singleton.mp h] at hcase
  · split at h
    · rename_i codes hlookup
      obtain ⟨n, hn, rfl⟩ := List.mem_map.mp h
      have hmem : (c.toNat, codes) ∈ upperExpansions := by
        obtain ⟨front, back, heq, _⟩ := List.lookup_eq_some_iff.mp hlookup
        rw [heq]
        simp
      exact Or.inr (List.all_eq_true.mp (List.all_eq_true.mp upperExpansions_xml _ hmem) n hn)
    · rw [List.mem_singleton.mp h]
      exact CaseRun.apply_xml upperRuns_xml c

theorem Within.lower (h : Within source cs) : Within source (lower cs) := by
  have hafter : ∀ before, Within source (lowerAfter before cs) := by
    induction cs with
    | nil => exact fun _ => within_nil
    | cons c rest ih =>
      intro before
      rw [lowerAfter, within_append]
      refine ⟨fun d hd => ?_, ih (h.of_subset fun _ => List.mem_cons_of_mem c) _⟩
      split at hd
      · -- Both sigmas are legal.
        rw [List.mem_singleton.mp hd]
        left
        split <;> decide
      · rcases mem_lowerChar hd with rfl | hd
        · exact h d List.mem_cons_self
        · exact Or.inl hd
  exact hafter []

theorem Within.capitalize (h : Within source cs) : Within source (capitalize cs) := by
  cases cs with
  | nil => exact within_nil
  | cons c rest =>
    rw [Text.capitalize, within_append]
    refine ⟨fun d hd => ?_, Within.lower (h.of_subset fun _ => List.mem_cons_of_mem c)⟩
    rcases mem_upperChar hd with rfl | hd
    · exact h d List.mem_cons_self
    · exact Or.inl hd

/-! ## Labels -/

theorem Within.spaceCamel (h : Within source cs) : Within source (spaceCamel cs) := by
  fun_induction Text.spaceCamel cs with
  | case1 a b rest _ ih =>
    have hrest := ih (h.of_subset fun _ => List.mem_cons_of_mem a)
    intro c hc
    rcases List.mem_cons.mp hc with rfl | hc
    · exact h c List.mem_cons_self
    · exact (within_cons (by decide)).mpr hrest c hc
  | case2 a b rest _ ih =>
    have hrest := ih (h.of_subset fun _ => List.mem_cons_of_mem a)
    intro c hc
    rcases List.mem_cons.mp hc with rfl | hc
    · exact h c List.mem_cons_self
    · exact hrest c hc
  | case3 => exact h

/-- A label has no illegal characters but those of the name. -/
theorem Within.label {name : String} (h : Within source name.toList) :
    Within source (label name).toList := by
  rw [toList_label, labelChars]
  refine within_intercalate (.of_all (by decide)) fun part hpart => ?_
  obtain ⟨word, hword, rfl⟩ := List.mem_map.mp hpart
  exact (h.spaceCamel.pieces hword).capitalize

end Swimlane.Text

namespace Swimlane

open Text

variable {source : List Char}

/-! ## Placeholders -/

namespace Placeholder

/-- Names of variables are legal. -/
theorem IsName.all_isXmlChar {name : List Char} (h : IsName name) :
    name.all isXmlChar = true := by
  refine List.all_eq_true.mpr fun c hc => ?_
  have hchar := h.isNameChar c hc
  simp only [Placeholder.isNameChar, Bool.or_eq_true, beq_iff_eq] at hchar
  rcases hchar with (hword | rfl) | rfl
  · exact isXmlChar_of_isWordChar hword
  · decide
  · decide

theorem all_isXmlChar_of_mem_names {s name : String} (h : name ∈ names s) :
    name.toList.all isXmlChar = true := by
  obtain ⟨i, written, rest, ⟨hname, _⟩, _⟩ := mem_names_iff.mp h
  exact hname.all_isXmlChar

theorem within_bare {cs : List Char} (h : Within source cs) : Within source (bare cs) := by
  unfold bare
  fun_induction parts cs with
  | case1 => exact within_nil
  | case2 cs name rest hfound _ ih =>
    obtain ⟨hname, before, after, _, _, rfl⟩ := inner?_eq_some_iff.mp hfound
    rw [List.flatMap_cons, within_append]
    exact ⟨.of_all hname.all_isXmlChar, ih (h.of_subset fun c hc => by simp [hc])⟩
  | case3 cs _ ih =>
    rw [List.flatMap_cons, within_append]
    exact ⟨.of_all (by decide), ih (h.of_subset fun _ => List.mem_cons_of_mem _)⟩
  | case4 c cs _ ih =>
    rw [List.flatMap_cons, within_append]
    refine ⟨h.of_subset fun d hd => ?_, ih (h.of_subset fun _ => List.mem_cons_of_mem _)⟩
    rw [List.mem_singleton.mp hd]
    exact List.mem_cons_self

theorem within_unbraced {s : String} (h : Within source s.toList) :
    Within source (unbraced s).toList := by
  rw [unbraced, String.toList_ofList]
  exact h.trimBy _

end Placeholder

/-! ## Expressions -/

namespace Bpmn

/-- The expression of a condition has no illegal characters but those of the condition. -/
theorem within_conditionExpression {condition : String} (h : Within source condition.toList) :
    Within source (conditionExpression condition).toList := by
  rw [conditionExpression, String.toList_append, within_append]
  refine ⟨.of_all (by decide), ?_⟩
  rw [String.toList_ofList]
  exact (Placeholder.within_bare h).trimBy _

/-- The expression of an assignee has no illegal characters but those of the assignee. -/
theorem within_assigneeExpression {assignee : String} (h : Within source assignee.toList) :
    Within source (assigneeExpression assignee).toList := by
  rw [assigneeExpression]
  split
  · rename_i name hwhole
    rw [String.toList_append, within_append]
    refine ⟨.of_all (by decide), .of_all ?_⟩
    rw [Placeholder.whole?] at hwhole
    split at hwhole
    · split at hwhole
      · rename_i found hfound
        cases hwhole
        rw [String.toList_ofList]
        exact (Placeholder.inner?_eq_some_iff.mp hfound).1.all_isXmlChar
      · cases hwhole
    · cases hwhole
  · exact h

end Bpmn

end Swimlane
