import Mathlib
import Swimlane.Form.Inference
import Swimlane.Proofs.Clauses
import Swimlane.Proofs.FormArtifacts

/-!
# The fields of an inferred form

A form has a field for every placeholder of its prompt, unless the name is excluded.  What a field
holds follows from its name and from the text around its placeholder, in which groups in braces
count as blanks.

## Key results

- `eraseBraced_eq_iff`: what the text outside of braces is
- `choices_of_inferType`: there are options exactly in choices, and two of them at least
- `inferred_infer`: what an inferred field looks like
- `inferred_form`: which fields a form has, and what they look like
-/

namespace Swimlane

/-! ## The text outside of braces -/

namespace Field

/-- A text in which every group in braces is a blank.  A group reaches from an opening brace to the
    next closing one; an opening brace behind which there is none begins no group. -/
inductive Outside : List Char → List Char → Prop
  | nil : Outside [] []
  | group {inside rest out : List Char} (h : '}' ∉ inside) (hrest : Outside rest out) :
      Outside ('{' :: (inside ++ '}' :: rest)) (' ' :: out)
  | plain {c : Char} {rest out : List Char} (h : c = '{' → '}' ∉ rest) (hrest : Outside rest out) :
      Outside (c :: rest) (c :: out)

/-- Within a group the text is read on behind the closing brace. -/
theorem eraseBraced_group {inside : List Char} (h : '}' ∉ inside) (rest : List Char) :
    eraseBraced true (inside ++ '}' :: rest) = eraseBraced false rest := by
  induction inside with
  | nil => simp [eraseBraced]
  | cons c inside ih =>
    obtain ⟨hc, hinside⟩ := not_or.mp (List.mem_cons.not.mp h)
    rw [List.cons_append, eraseBraced, if_pos rfl, if_neg (Ne.symm hc), ih hinside]

/-- Erasing groups leaves the text outside of braces. -/
theorem outside_eraseBraced (cs : List Char) : Outside cs (eraseBraced false cs) := by
  cases cs with
  | nil => exact .nil
  | cons c cs =>
    rw [eraseBraced, if_neg (by decide)]
    split
    · rename_i hgroup
      rw [Bool.and_eq_true, decide_eq_true_eq, List.contains_iff_mem] at hgroup
      obtain ⟨rfl, hclosing⟩ := hgroup
      obtain ⟨inside, rest, rfl, hinside⟩ := List.eq_append_cons_of_mem hclosing
      rw [eraseBraced_group hinside]
      exact .group hinside (outside_eraseBraced rest)
    · rename_i hplain
      refine .plain (fun hc hmem => hplain ?_) (outside_eraseBraced cs)
      rw [Bool.and_eq_true, decide_eq_true_eq, List.contains_iff_mem]
      exact ⟨hc, hmem⟩
termination_by cs.length
decreasing_by
  all_goals subst_vars; simp only [List.length_cons, List.length_append]; omega

/-- What is outside of braces is determined by the text. -/
theorem eraseBraced_eq_iff {cs out : List Char} : eraseBraced false cs = out ↔ Outside cs out := by
  refine ⟨fun h => h ▸ outside_eraseBraced cs, fun h => ?_⟩
  -- No two rules of `Outside` apply to one text, so the relation follows the recursion.
  induction h with
  | nil => rfl
  | group h _ ih =>
    rw [eraseBraced, if_neg (by decide), if_pos (by simp), eraseBraced_group h, ih]
  | plain h _ ih =>
    rw [eraseBraced, if_neg (by decide), if_neg (by simpa using h), ih]

/-! ## Types and options -/

/-- What names and words tell is no choice. -/
theorem ofName?_ne_choice {tokens : List String} {type : FieldType}
    (h : Hint.ofName? tokens = some type) : type ≠ .choice := by
  obtain ⟨hint, hfound, rfl⟩ := Option.map_eq_some_iff.mp h
  have hall : ∀ hint ∈ Hint.nameHints, hint.1 ≠ .choice := by decide
  exact hall hint (List.mem_of_find?_eq_some hfound)

theorem ofContext?_ne_choice {context : List Char} {type : FieldType}
    (h : Hint.ofContext? context = some type) : type ≠ .choice := by
  obtain ⟨hint, hfound, rfl⟩ := Option.map_eq_some_iff.mp h
  have hall : ∀ hint ∈ Hint.contextHints, hint.1 ≠ .choice := by decide
  exact hall hint (List.mem_of_find?_eq_some hfound)

/-- An enumeration has two values at least. -/
theorem length_enumeration? {context : List Char} {values : List (List Char)}
    (h : Hint.enumeration? context = some values) : 2 ≤ values.length := by
  have hvalues : ∀ cs, Hint.enumValues? cs = some values → 2 ≤ values.length := by
    intro cs hcs
    rw [Hint.enumValues?] at hcs
    split at hcs
    · simp only [Option.ite_none_right_eq_some, Option.some.injEq, Bool.and_eq_true,
        decide_eq_true_eq] at hcs
      obtain ⟨⟨hlength, _⟩, rfl⟩ := hcs
      exact hlength
    · cases hcs
  induction context with
  | nil => cases h
  | cons c cs ih =>
    rw [Hint.enumeration?] at h
    cases hfirst : (if c = '(' then Hint.enumValues? cs else none) with
    | none =>
      rw [hfirst] at h
      exact ih h
    | some found =>
      rw [hfirst] at h
      cases h
      split at hfirst
      · exact hvalues cs hfirst
      · cases hfirst

/-- The usual options of a name are two at least. -/
theorem length_optionsOfName? {tokens values : List String}
    (h : Hint.optionsOfName? tokens = some values) : 2 ≤ values.length := by
  obtain ⟨token, _, hlookup⟩ := List.exists_of_findSome?_eq_some h
  have hall : ∀ entry ∈ Hint.knownOptions, 2 ≤ entry.2.length := by decide
  obtain ⟨before, after, heq, _⟩ := List.lookup_eq_some_iff.mp hlookup
  exact hall (token, values) (by rw [heq]; simp)

/-- A field has options exactly if it is a choice, and then two of them at least. -/
theorem choices_of_inferType (name : String) (context : List Char) :
    ((inferType name context).1 = .choice → 2 ≤ (inferType name context).2.length) ∧
    ((inferType name context).1 ≠ .choice → (inferType name context).2 = []) := by
  rw [inferType]
  -- The hints are asked one after the other.  Only enumerations and names with usual options give
  -- choices, and these are the two that come with values.
  split
  · rename_i type htype
    exact ⟨fun heq => absurd heq (ofName?_ne_choice htype), fun _ => rfl⟩
  · split
    · rename_i values hvalues
      split
      · exact ⟨fun heq => absurd heq (by decide), fun _ => rfl⟩
      · refine ⟨fun _ => ?_, fun hne => absurd rfl hne⟩
        rw [optionsOf, List.length_map]
        exact length_enumeration? hvalues
    · split
      · rename_i type htype
        exact ⟨fun heq => absurd heq (ofContext?_ne_choice htype), fun _ => rfl⟩
      · split
        · exact ⟨fun heq => absurd heq (by decide), fun _ => rfl⟩
        · split
          · rename_i values hvalues
            refine ⟨fun _ => ?_, fun hne => absurd rfl hne⟩
            rw [optionsOf, List.length_map, List.length_map]
            exact length_optionsOfName? hvalues
          · exact ⟨fun heq => absurd heq (by decide), fun _ => rfl⟩

/-! ## Fields -/

/-- The rule that the values of a type have to follow, if there is one. -/
def ownRules : FieldType → List String
  | .email => ["pattern"]
  | .date => ["pattern"]
  | .number => ["range"]
  | .text => ["maxLength"]
  | .boolean => []
  | .choice => []

theorem types_typeRules (tokens : List String) (type : FieldType) :
    (typeRules tokens type).map (·.type) = (ownRules type).map .str := by
  cases type with
  | number =>
    rw [typeRules]
    split <;> rfl
  | _ => rfl

/-- What the field of a variable looks like if the given segment is stored for it: it has a label
    that is not empty, options exactly if it is a choice, and the rule that it is required unless
    the segment says outside of braces that it is optional, before the rule of its type. -/
structure Inferred (name segment : String) (field : Field) : Prop where
  name : field.name = .str name
  label : ∃ label, field.label = .str label ∧ label ≠ ""
  body : ∃ type : FieldType, field.type = .str type.name ∧
    (field.options ≠ [] ↔ type = .choice) ∧ (type = .choice → 2 ≤ field.options.length) ∧
    ∃ context, (∀ out, Outside segment.toList out ↔ out = context) ∧
      ((∃ phrase ∈ Hint.optionalPhrases, Text.Mentions phrase context) →
        field.rules.map (·.type) = (ownRules type).map .str) ∧
      ((¬ ∃ phrase ∈ Hint.optionalPhrases, Text.Mentions phrase context) →
        field.rules.map (·.type) = ("required" :: ownRules type).map .str)

/-- A field is optional if its context says so. -/
theorem isOptional_iff {context : List Char} : Hint.isOptional context = true ↔
    ∃ phrase ∈ Hint.optionalPhrases, Text.Mentions phrase context :=
  Text.mentionsWord_iff (by decide +kernel)

/-- The field of a variable is as its name and its segment tell. -/
theorem inferred_infer {name : String} (hname : name ≠ "") (segment : String) :
    Inferred name segment (infer name segment) := by
  obtain ⟨hchoice, hother⟩ := choices_of_inferType name (eraseBraced false segment.toList)
  refine ⟨rfl, ?_, (inferType name (eraseBraced false segment.toList)).1, rfl, ?_, hchoice,
    eraseBraced false segment.toList, fun out => eraseBraced_eq_iff.symm.trans eq_comm,
    fun hoptional => ?_, fun hrequired => ?_⟩
  · simp only [infer]
    split
    · exact ⟨name, rfl, hname⟩
    · rename_i hlabel
      exact ⟨_, rfl, hlabel⟩
  · -- Where options are needed there are some, and elsewhere there are none.
    constructor
    · intro hoptions
      by_contra hne
      exact hoptions (hother hne)
    · intro htype hnil
      have htwo := hchoice htype
      have hnone : (inferType name (eraseBraced false segment.toList)).2 = [] := hnil
      rw [hnone] at htwo
      exact absurd htwo (by decide)
  · rw [← isOptional_iff] at hoptional
    simp only [infer, hoptional, if_true, List.nil_append]
    exact types_typeRules _ _
  · rw [← isOptional_iff] at hrequired
    simp only [infer, hrequired, Bool.false_eq_true, if_false, List.map_cons, List.singleton_append]
    rw [types_typeRules]
    rfl

end Field

/-! ## Forms -/

namespace Form

/-- A form is inferred unless all placeholders of the prompt are excluded.  Its fields are those of
    all other placeholders, each name once, in the order in which the names are first written, and
    each field is as its name and its segment tell. -/
theorem inferred_form (stateId prompt : String) (exclude : List String) :
    (infer? stateId prompt exclude = none ↔
      ∀ i name, Placeholder.At prompt.toList i name → name ∈ exclude) ∧
    ∀ f, infer? stateId prompt exclude = some f → ∃ names : List String,
      f.fields.map (·.name) = names.map .str ∧ names.Nodup ∧
      (∀ name, name ∈ names ↔ (∃ i, Placeholder.At prompt.toList i name) ∧ name ∉ exclude) ∧
      (names.Pairwise fun a b => ∀ j, Placeholder.At prompt.toList j b →
        ∃ i < j, Placeholder.At prompt.toList i a) ∧
      ∀ field ∈ f.fields, ∃ name ∈ names,
        Field.Inferred name ((Assoc.get? name (segments prompt)).getD "") field := by
  constructor
  · rw [← Option.not_isSome_iff_eq_none, isSome_infer?, not_not, List.filter_eq_nil_iff]
    constructor
    · intro hall i name hat
      simpa using hall name (Placeholder.mem_names_iff.mpr ⟨i, hat⟩)
    · intro hall name hname
      obtain ⟨i, hat⟩ := Placeholder.mem_names_iff.mp hname
      simpa using hall i name hat
  · intro f hf
    refine ⟨(Placeholder.names prompt).filter (!exclude.contains ·), ?_,
      (Placeholder.nodup_names prompt).filter _, fun name => ?_,
      (Placeholder.pairwise_names prompt).filter _, fun field hfield => ?_⟩
    · rw [fields_of_infer? hf, List.map_map]
      rfl
    · rw [List.mem_filter, Placeholder.mem_names_iff]
      simp
    · rw [fields_of_infer? hf] at hfield
      obtain ⟨name, hname, rfl⟩ := List.mem_map.mp hfield
      exact ⟨name, hname,
        Field.inferred_infer (Placeholder.ne_empty_of_mem_names (List.mem_of_mem_filter hname)) _⟩

end Form

end Swimlane
