import Mathlib
import Swimlane.Proofs.LegalText
import Swimlane.Proofs.MarkupReader

/-!
# Legal markup

The text of an element is made of its tags and of the texts in it, the values of its attributes and
its contents.  Tags are names, markup characters become entities, and no name and no entity has an
illegal character: so the illegal characters of a document are those of the texts in it.

## Key results

- `Xml.mem_document_iff`: the illegal characters of a document
- `Xml.keeps_leaf`, `Xml.keeps_text`, `Xml.keeps_block`: what the texts in an element keep to
-/

namespace Swimlane

open Text

namespace Xml

/-- The texts of an element: the values of its attributes, and its content. -/
def texts (x : Xml) : List String := x.attributes.map (·.2) ++ [x.content]

/-- The values of the attributes inside of an element are texts of it. -/
theorem mem_texts_of_attribute? {x e : Xml} (he : e ∈ x.elements) {name value : String}
    (h : e.attribute? name = some value) : value ∈ x.collect texts := by
  refine List.mem_flatMap.mpr ⟨e, he, List.mem_append_left _ ?_⟩
  exact List.mem_map.mpr ⟨(name, value), Assoc.mem_of_get? h, rfl⟩

/-- Names are legal. -/
theorem all_isXmlChar_of_isName {name : String} (h : Markup.isName name = true) :
    name.toList.all isXmlChar = true := by
  refine List.all_eq_true.mpr fun c hc => ?_
  have hchar := (Markup.isName_iff.mp h).2 c hc
  rw [Markup.isNameChar, Bool.or_eq_true] at hchar
  rcases hchar with hchar | hchar
  · exact isXmlChar_of_isAlphanum hchar
  · have hmarks : [':', '_', '-', '.'].all isXmlChar = true := by decide
    exact List.all_eq_true.mp hmarks c (of_decide_eq_true hchar)

section Illegal

variable {c : Char} (hc : isXmlChar c = false)

include hc

theorem not_mem_of_all {cs : List Char} (h : cs.all isXmlChar = true) : c ∉ cs := by
  intro hmem
  rw [List.all_eq_true.mp h c hmem] at hc
  cases hc

/-- An illegal character is not escaped, and does not come from an escape. -/
theorem mem_escapeChars_iff {cs : List Char} : c ∈ escapeChars cs ↔ c ∈ cs := by
  have hlegal : (entities.all fun entity => isXmlChar entity.1 && entity.2.all isXmlChar) =
      true := by decide
  have hentity : ∀ {d : Char}, (d, escapeChar d) ∈ entities → d ≠ c ∧ c ∉ escapeChar d := by
    intro d hd
    obtain ⟨hchar, hall⟩ := Bool.and_eq_true_iff.mp (List.all_eq_true.mp hlegal _ hd)
    refine ⟨?_, not_mem_of_all hc hall⟩
    rintro rfl
    rw [hchar] at hc
    cases hc
  rw [escapeChars_eq_flatMap, List.mem_flatMap]
  constructor
  · rintro ⟨d, hd, hmem⟩
    rcases escapeChar_cases d with hmarkup | ⟨_, hself⟩
    · exact absurd hmem (hentity hmarkup).2
    · rw [hself, List.mem_singleton] at hmem
      exact hmem ▸ hd
  · intro hmem
    rcases escapeChar_cases c with hmarkup | ⟨_, hself⟩
    · exact absurd rfl (hentity hmarkup).1
    · exact ⟨c, hmem, hself ▸ List.mem_singleton_self c⟩

theorem mem_openChars_iff {words : Vocabulary} (hwords : words.isNamed = true) {tag : String}
    {attributes : List (String × String)} (h : words.Has tag attributes) :
    c ∈ openChars tag attributes ↔ ∃ t ∈ attributes.map (·.2), c ∈ t.toList := by
  obtain ⟨htag, hnames⟩ := h.isName hwords
  have hattribute : ∀ a ∈ attributes, (c ∈ attributeChars a ↔ c ∈ a.2.toList) := by
    rintro ⟨name, value⟩ ha
    have hname : c ∉ name.toList := not_mem_of_all hc (all_isXmlChar_of_isName (hnames _ ha))
    have hmarks : c ∉ [' ', '=', '"'] := not_mem_of_all hc (by decide)
    simp only [List.mem_cons, List.not_mem_nil, or_false, not_or] at hmarks
    simp [attributeChars, hname, hmarks, mem_escapeChars_iff hc]
  have htagged : c ∉ '<' :: tag.toList := by
    refine not_mem_of_all hc ?_
    rw [List.all_cons, all_isXmlChar_of_isName htag, Bool.and_true]
    decide
  rw [openChars, List.mem_append, or_iff_right htagged, List.mem_flatMap]
  constructor
  · rintro ⟨a, ha, hmem⟩
    exact ⟨a.2, List.mem_map_of_mem ha, (hattribute a ha).mp hmem⟩
  · rintro ⟨t, ht, hmem⟩
    obtain ⟨a, ha, rfl⟩ := List.mem_map.mp ht
    exact ⟨a, ha, (hattribute a ha).mpr hmem⟩

theorem mem_lineChars_iff {level : Nat} {cs : List Char} : c ∈ lineChars level cs ↔ c ∈ cs := by
  have hmarks : c ∉ [' ', '\n'] := not_mem_of_all hc (by decide)
  simp only [List.mem_cons, List.not_mem_nil, or_false, not_or] at hmarks
  simp [lineChars, hmarks]

theorem not_mem_closeChars {words : Vocabulary} (hwords : words.isNamed = true) {tag : String}
    {attributes : List (String × String)} (h : words.Has tag attributes) :
    c ∉ closeChars tag := by
  refine not_mem_of_all hc ?_
  rw [closeChars, List.all_append, List.all_cons, List.all_cons,
    all_isXmlChar_of_isName (h.isName hwords).1, Bool.and_true]
  decide

end Illegal

mutual

/-- The illegal characters of the text of an element are those of the texts in it. -/
theorem mem_chars_iff {c : Char} (hc : isXmlChar c = false) {words : Vocabulary}
    (hwords : words.isNamed = true) (level : Nat) :
    (x : Xml) → x.Speaks words →
      (c ∈ chars level x ↔ ∃ t ∈ x.collect texts, c ∈ t.toList)
  | .leaf tag attributes, h => by
    have hend : c ∉ [' ', '/', '>'] := not_mem_of_all hc (by decide)
    rw [chars, mem_lineChars_iff hc, List.mem_append, or_iff_left hend,
      mem_openChars_iff hc hwords (speaks_leaf.mp h), collect_leaf, texts]
    simp [content]
  | .text tag attributes inner, h => by
    have hopen := mem_openChars_iff hc hwords (speaks_text.mp h)
    have hclose := not_mem_closeChars hc hwords (speaks_text.mp h)
    have hmark : c ≠ '>' := by
      rintro rfl
      cases hc
    rw [chars, mem_lineChars_iff hc, collect_text, texts]
    simp [hopen, hmark, hclose, mem_escapeChars_iff hc, or_and_right, exists_or]
  | .block tag attributes children, h => by
    obtain ⟨hself, hchildren⟩ := speaks_block.mp h
    have hopen := mem_openChars_iff hc hwords hself
    have hclose := not_mem_closeChars hc hwords hself
    have hmark : c ∉ ['>'] := not_mem_of_all hc (by decide)
    have hinner := mem_allChars_iff hc hwords (level + 1) children hchildren
    rw [chars, List.mem_append, List.mem_append, mem_lineChars_iff hc, mem_lineChars_iff hc,
      or_iff_left hclose, List.mem_append, or_iff_left hmark, hopen, hinner, collect_block, texts]
    simp [content, or_and_right, exists_or]

/-- The illegal characters of the text of several elements are those of the texts in them. -/
theorem mem_allChars_iff {c : Char} (hc : isXmlChar c = false) {words : Vocabulary}
    (hwords : words.isNamed = true) (level : Nat) :
    (xs : List Xml) → (∀ x ∈ xs, x.Speaks words) →
      (c ∈ allChars level xs ↔ ∃ t ∈ xs.flatMap (collect texts), c ∈ t.toList)
  | [], _ => by simp [allChars]
  | x :: rest, h => by
    obtain ⟨hx, hrest⟩ := List.forall_mem_cons.mp h
    rw [allChars, List.mem_append, mem_chars_iff hc hwords level x hx,
      mem_allChars_iff hc hwords level rest hrest, List.flatMap_cons]
    simp only [List.mem_append, or_and_right, exists_or]

end

/-- The illegal characters of a document are those of the texts in it. -/
theorem mem_document_iff {c : Char} (hc : isXmlChar c = false) {words : Vocabulary}
    (hwords : words.isNamed = true) {root : Xml} (h : root.Speaks words) :
    c ∈ root.document.toList ↔ ∃ t ∈ root.collect texts, c ∈ t.toList := by
  have hfront : c ∉ declaration.toList := not_mem_of_all hc (by decide +kernel)
  rw [document, String.toList_append, List.mem_append, or_iff_right hfront, String.toList_ofList,
    mem_chars_iff hc hwords 0 root h]

/-- No text in an element has illegal characters but those of another text. -/
def Keeps (source : List Char) (x : Xml) : Prop := ∀ t ∈ x.collect texts, Within source t.toList

section Keeps

variable {source : List Char} {tag : String} {attributes : List (String × String)}

theorem forall_texts_iff {x : Xml} : (∀ t ∈ x.texts, Within source t.toList) ↔
    (∀ a ∈ x.attributes, Within source a.2.toList) ∧ Within source x.content.toList := by
  rw [texts, List.forall_mem_append, List.forall_mem_map, List.forall_mem_singleton]

theorem keeps_leaf :
    (leaf tag attributes).Keeps source ↔ ∀ a ∈ attributes, Within source a.2.toList := by
  rw [Keeps, collect_leaf, forall_texts_iff]
  exact and_iff_left within_nil

theorem keeps_text {inner : String} : (text tag attributes inner).Keeps source ↔
    (∀ a ∈ attributes, Within source a.2.toList) ∧ Within source inner.toList := by
  rw [Keeps, collect_text, forall_texts_iff]
  rfl

theorem keeps_block {children : List Xml} : (block tag attributes children).Keeps source ↔
    (∀ a ∈ attributes, Within source a.2.toList) ∧ ∀ x ∈ children, x.Keeps source := by
  rw [Keeps, collect_block, List.forall_mem_append, forall_texts_iff, List.forall_mem_flatMap]
  exact and_congr_left fun _ => and_iff_left within_nil

end Keeps

end Xml

end Swimlane
