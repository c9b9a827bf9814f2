import Mathlib.Data.List.Basic
import Mathlib.Tactic.SplitIfs
import Swimlane.Bpmn.Xml
import Swimlane.Proofs.Assoc

/-!
# Entities

A text is escaped by replacing one markup character after the other, each in the whole text.  No
entity has a character that is replaced after it, so what one replacement has written is left alone
by the others: every character becomes its entity or stays what it is, whatever stands around it.
A text that has entities in it already is therefore escaped like any other, and can be read back.

## Key results

- `foldl_replaceChar`: replacements one after the other act on each character of a text by itself
- `escapeChars_eq_flatMap`: what becomes of a text
- `exists_entity_of_escapeChars`: a `&` in an escaped text begins an entity
- `decode_escapeChars`: entities are read back as what they stand for
-/

namespace Swimlane

namespace Xml

/-- What stands for a character of a text or an attribute value. -/
def escapeChar (c : Char) : List Char :=
  if c = '&' then "&amp;".toList
  else if c = '<' then "&lt;".toList
  else if c = '>' then "&gt;".toList
  else if c = '"' then "&quot;".toList
  else if c = '\'' then "&apos;".toList
  else [c]

/-! ## Replacements in turn -/

/-- Replacements one after the other act on each character of a text by itself, if what stands for
    a character has none of the characters that are replaced later. -/
theorem foldl_replaceChar {table : List (Char × List Char)}
    (h : table.Pairwise fun entry later => later.1 ∉ entry.2) (cs : List Char) :
    table.foldl (fun cs entry => replaceChar entry.1 entry.2 cs) cs =
      cs.flatMap fun c => (Assoc.get? c table).getD [c] := by
  induction table generalizing cs with
  | nil => exact (List.flatMap_singleton' cs).symm
  | cons entry table ih =>
    obtain ⟨hentry, htable⟩ := List.pairwise_cons.mp h
    rw [List.foldl_cons, ih htable, replaceChar, List.flatMap_assoc]
    congr 1
    funext c
    by_cases hc : c = entry.1
    · -- What stands for the character now is not replaced again.
      have hkept : ∀ d ∈ entry.2, (Assoc.get? d table).getD [d] = [d] := by
        intro d hd
        rw [Assoc.get?_eq_none]
        · rfl
        · intro hmem
          obtain ⟨later, hlater, rfl⟩ := List.mem_map.mp hmem
          exact hentry later hlater hd
      rw [if_pos hc, List.flatMap_congr hkept, List.flatMap_singleton', Assoc.get?, hc]
      simp
    · have hne : (entry.1 == c) = false := beq_false_of_ne (Ne.symm hc)
      rw [if_neg hc, List.flatMap_singleton, Assoc.get?, hne]
      rfl

theorem escapeChar_eq_get? (c : Char) : escapeChar c = (Assoc.get? c entities).getD [c] := by
  simp only [escapeChar, entities, Assoc.get?, beq_iff_eq, @eq_comm _ _ c]
  split_ifs <;> rfl

/-- Every character of a text becomes its entity or stays what it is. -/
theorem escapeChars_eq_flatMap (cs : List Char) : escapeChars cs = cs.flatMap escapeChar := by
  -- The `&` is in every entity, but it is the first to be replaced.
  have horder : entities.Pairwise fun entity later => later.1 ∉ entity.2 := by decide
  rw [escapeChars, foldl_replaceChar horder]
  simp only [← escapeChar_eq_get?]

theorem escapeChars_cons (c : Char) (cs : List Char) :
    escapeChars (c :: cs) = escapeChar c ++ escapeChars cs := by
  simp only [escapeChars_eq_flatMap, List.flatMap_cons]

theorem escapeChars_append (xs ys : List Char) :
    escapeChars (xs ++ ys) = escapeChars xs ++ escapeChars ys := by
  simp only [escapeChars_eq_flatMap, List.flatMap_append]

/-! ## What an escaped text has in it -/

/-- A character is a markup character with its entity, or it stands for itself. -/
theorem escapeChar_cases (c : Char) :
    (c, escapeChar c) ∈ entities ∨ c ∉ entities.map (·.1) ∧ escapeChar c = [c] := by
  rw [escapeChar_eq_get?]
  by_cases hc : c ∈ entities.map (·.1)
  · obtain ⟨entity, hentity⟩ := Assoc.exists_get? hc
    rw [hentity]
    exact Or.inl (Assoc.mem_of_get? hentity)
  · rw [Assoc.get?_eq_none hc]
    exact Or.inr ⟨hc, rfl⟩

/-- Of the markup characters nothing but `&` is left in an escaped text. -/
theorem not_mem_escapeChars {c : Char} (hc : c ∈ entities.map (·.1)) (hne : c ≠ '&')
    (cs : List Char) : c ∉ escapeChars cs := by
  rw [escapeChars_eq_flatMap, List.mem_flatMap]
  rintro ⟨d, _, hmem⟩
  rcases escapeChar_cases d with hentity | ⟨hd, hself⟩
  · have hclean : (entities.all fun entity => entities.all fun other =>
        other.1 == '&' || !entity.2.contains other.1) = true := by decide
    obtain ⟨other, hother, rfl⟩ := List.mem_map.mp hc
    have hfree := List.all_eq_true.mp (List.all_eq_true.mp hclean _ hentity) _ hother
    simp [hne, hmem] at hfree
  · rw [hself, List.mem_singleton] at hmem
    exact hd (hmem ▸ hc)

/-- An entity has a `&` at its front and nowhere else. -/
theorem exists_cons_of_mem_entities {entity : Char × List Char} (h : entity ∈ entities) :
    ∃ name, entity.2 = '&' :: name ∧ '&' ∉ name := by
  simp only [entities, List.mem_cons, List.not_mem_nil, or_false] at h
  rcases h with rfl | rfl | rfl | rfl | rfl <;> exact ⟨_, rfl, by decide⟩

/-- A `&` in an escaped text begins an entity. -/
theorem exists_entity_of_escapeChars {cs front rest : List Char}
    (h : escapeChars cs = front ++ '&' :: rest) :
    ∃ entity ∈ entities, entity.2 <+: '&' :: rest := by
  induction cs generalizing front with
  | nil => simp [escapeChars_eq_flatMap] at h
  | cons c cs ih =>
    rw [escapeChars_cons] at h
    rcases List.append_eq_append_iff.mp h with ⟨behind, _, hbehind⟩ | ⟨inner, hinner, hrest⟩
    · exact ih hbehind
    · cases inner with
      | nil => exact @ih [] hrest.symm
      | cons d inner =>
        -- The `&` is one of the characters that stand for `c`.
        rw [List.cons_append, List.cons.injEq] at hrest
        obtain ⟨rfl, rfl⟩ := hrest
        rcases escapeChar_cases c with hentity | ⟨hc, hself⟩
        · obtain ⟨name, hname, hfree⟩ := exists_cons_of_mem_entities hentity
          -- It is the first of them, so the entity stands there as a whole.
          have hfront : front = [] := by
            cases front with
            | nil => rfl
            | cons d front =>
              rw [hinner, List.cons_append, List.cons.injEq] at hname
              exact absurd (hname.2 ▸ List.mem_append_right _ List.mem_cons_self) hfree
          refine ⟨_, hentity, ?_⟩
          rw [hinner, hfront]
          exact List.prefix_append _ _
        · rw [hself] at hinner
          have hmem : '&' ∈ [c] := hinner ▸ List.mem_append_right _ List.mem_cons_self
          rw [← List.mem_singleton.mp hmem] at hc
          exact absurd (by decide) hc

end Xml

namespace Markup

/-! ## Reading entities -/

/-- A text with its entities replaced by what they stand for, from left to right.  A `&` that begins
    no entity is refused. -/
def decode : List Char → Option (List Char)
  | [] => some []
  | '&' :: 'a' :: 'm' :: 'p' :: ';' :: rest => (decode rest).map ('&' :: ·)
  | '&' :: 'l' :: 't' :: ';' :: rest => (decode rest).map ('<' :: ·)
  | '&' :: 'g' :: 't' :: ';' :: rest => (decode rest).map ('>' :: ·)
  | '&' :: 'q' :: 'u' :: 'o' :: 't' :: ';' :: rest => (decode rest).map ('"' :: ·)
  | '&' :: 'a' :: 'p' :: 'o' :: 's' :: ';' :: rest => (decode rest).map ('\'' :: ·)
  | '&' :: _ => none
  | c :: rest => (decode rest).map (c :: ·)

theorem decode_cons_of_ne {c : Char} (h : c ≠ '&') (rest : List Char) :
    decode (c :: rest) = (decode rest).map (c :: ·) := by
  rw [decode.eq_def]
  split <;> simp_all

/-- What stands for a character is read back as the character. -/
theorem decode_escapeChar (c : Char) (rest : List Char) :
    decode (Xml.escapeChar c ++ rest) = (decode rest).map (c :: ·) := by
  rcases Xml.escapeChar_cases c with hentity | ⟨hc, hself⟩
  · simp only [Xml.entities, List.mem_cons, List.not_mem_nil, or_false, Prod.mk.injEq] at hentity
    rcases hentity with ⟨rfl, _⟩ | ⟨rfl, _⟩ | ⟨rfl, _⟩ | ⟨rfl, _⟩ | ⟨rfl, _⟩ <;> rfl
  · have hne : c ≠ '&' := fun heq => hc (heq ▸ List.mem_cons_self)
    rw [hself]
    exact decode_cons_of_ne hne rest

theorem decode_escapeChars (cs : List Char) : decode (Xml.escapeChars cs) = some cs := by
  induction cs with
  | nil => rfl
  | cons c rest ih =>
    rw [Xml.escapeChars_cons, decode_escapeChar, ih]
    rfl

/-- A text without entities is read as it is. -/
theorem decode_eq_self {cs : List Char} (h : '&' ∉ cs) : decode cs = some cs := by
  induction cs with
  | nil => rfl
  | cons c rest ih =>
    rw [List.mem_cons, not_or] at h
    rw [decode_cons_of_ne (Ne.symm h.1), ih h.2]
    rfl

end Markup

namespace Xml

/-! ## A code -/

/-- Escaping is a code.  Every character of a text becomes its entity or stays what it is; no
    bracket and no quote is left, and a `&` begins an entity; the text is read back in one pass.
    Texts can be joined before or after they are escaped, and different texts stay different. -/
theorem escape_code (s : String) :
    (escape s).toList = s.toList.flatMap escapeChar ∧
    (∀ c ∈ (escape s).toList, c ≠ '<' ∧ c ≠ '>' ∧ c ≠ '"' ∧ c ≠ '\'') ∧
    (∀ front rest, (escape s).toList = front ++ '&' :: rest →
      ∃ entity ∈ entities, entity.2 <+: '&' :: rest) ∧
    Markup.decode (escape s).toList = some s.toList ∧
    (∀ t : String, escape (s ++ t) = escape s ++ escape t) ∧
    Function.Injective escape := by
  have hchars : ∀ t : String, (escape t).toList = escapeChars t.toList :=
    fun t => String.toList_ofList
  refine ⟨?_, fun c hc => ?_, fun front rest h => ?_, ?_, fun t => ?_, fun t u h => ?_⟩
  · rw [hchars, escapeChars_eq_flatMap]
  · rw [hchars] at hc
    have hne : ∀ d ∈ entities.map (·.1), d ≠ '&' → c ≠ d := fun d hd hamp heq =>
      not_mem_escapeChars hd hamp _ (heq ▸ hc)
    exact ⟨hne _ (by decide) (by decide), hne _ (by decide) (by decide),
      hne _ (by decide) (by decide), hne _ (by decide) (by decide)⟩
  · rw [hchars] at h
    exact exists_entity_of_escapeChars h
  · rw [hchars, Markup.decode_escapeChars]
  · apply String.toList_inj.mp
    rw [String.toList_append, hchars, hchars, hchars, String.toList_append, escapeChars_append]
  · have hread := Markup.decode_escapeChars t.toList
    rw [← hchars, h, hchars, Markup.decode_escapeChars, Option.some.injEq] at hread
    exact String.toList_inj.mp hread.symm

/-- A text that has an entity in it already. -/
theorem escape_code_nested :
    escape "&lt;<" = "&amp;lt;&lt;" ∧
    (escape "&lt;<").toList = "&amp;lt;".toList ++ '&' :: "lt;".toList ∧
    ∃ entity ∈ entities, entity.2 <+: '&' :: "lt;".toList :=
  ⟨by decide, by decide, (escape_code "&lt;<").2.2.1 "&amp;lt;".toList "lt;".toList (by decide)⟩

end Xml

end Swimlane
