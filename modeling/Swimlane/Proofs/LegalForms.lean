import Mathlib
import Swimlane.Proofs.FormFields
import Swimlane.Proofs.JsonText
import Swimlane.Proofs.LegalText

/-!
# Legal forms

The form that a prompt asks for is written as JSON text.  Whatever the prompt says, the form has
legal characters only: its texts are made of names, of word characters and of fixed words, and JSON
text escapes control characters.

## Key results

- `Json.all_isXmlChar_dense`: the JSON text of a value with legal texts
- `Form.all_isXmlChar_titleOf`: titles are legal
- `Field.isXml_infer`, `Form.isXml_infer?`: fields and forms are legal
-/

namespace Swimlane

open Text

/-! ## JSON text -/

namespace Json

mutual

/-- Whether all texts in a value are legal; numbers with a fraction are left out. -/
def isXml : Json → Bool
  | float _ => false
  | str s => s.toList.all isXmlChar
  | arr items => itemsXml items
  | obj members => membersXml members
  | _ => true

/-- Whether all texts in the items of a list are legal. -/
def itemsXml : List Json → Bool
  | [] => true
  | v :: rest => v.isXml && itemsXml rest

/-- Whether all texts in the members of an object, and their names, are legal. -/
def membersXml : List (String × Json) → Bool
  | [] => true
  | (name, v) :: rest => name.toList.all isXmlChar && v.isXml && membersXml rest

end

theorem itemsXml_eq_all (vs : List Json) : itemsXml vs = vs.all isXml := by
  induction vs with
  | nil => rfl
  | cons v rest ih => rw [itemsXml, ih, List.all_cons]

/-- A member more. -/
theorem membersXml_cons {name : String} {v : Json} {rest : List (String × Json)}
    (hname : name.toList.all isXmlChar = true) (hv : v.isXml = true)
    (hrest : membersXml rest = true) : membersXml ((name, v) :: rest) = true := by
  simp [membersXml, hname, hv, hrest]

theorem membersXml_ifGiven {name : String} {v : Json}
    (hname : name.toList.all isXmlChar = true) (hv : v.isXml = true) :
    membersXml (ifGiven name v) = true := by
  rw [ifGiven]
  split
  · exact membersXml_cons hname hv rfl
  · rfl

/-- What a legal character is escaped to is legal. -/
theorem isXmlChar_of_mem_escapeChar {c d : Char} (hc : isXmlChar c = true)
    (h : d ∈ escapeChar false c) : isXmlChar d = true := by
  by_cases hl : c ∈ lettered
  · have hall : (lettered.all fun c => (escapeChar false c).all isXmlChar) = true := by
      decide +kernel
    exact List.all_eq_true.mp (List.all_eq_true.mp hall c hl) d h
  · rw [escapeChar_of_not_mem hl] at h
    split at h
    · rename_i hcontrol
      have hall : ∀ n < 0x20, (unitEscape n).all isXmlChar = true := by decide +kernel
      exact List.all_eq_true.mp (hall _ hcontrol) d h
    · rwa [List.mem_singleton.mp h]

theorem all_isXmlChar_stringChars {s : String} (h : s.toList.all isXmlChar = true) :
    (stringChars false s).all isXmlChar = true := by
  have hinner : (s.toList.flatMap (escapeChar false)).all isXmlChar = true := by
    refine List.all_eq_true.mpr fun d hd => ?_
    obtain ⟨c, hc, hd⟩ := List.mem_flatMap.mp hd
    exact isXmlChar_of_mem_escapeChar (List.all_eq_true.mp h c hc) hd
  have hquote : isXmlChar '"' = true := by decide
  simp [stringChars, hinner, hquote]

theorem all_isXmlChar_toString (n : Int) : (toString n).toList.all isXmlChar = true := by
  have hdigits : ∀ m : Nat, (Nat.toDigits 10 m).all isXmlChar = true := by
    intro m
    refine List.all_eq_true.mpr fun c hc => isXmlChar_of_isAlphanum ?_
    simp [Char.isAlphanum, isDigit_toDigits m c hc]
  cases n with
  | ofNat m =>
    rw [toList_toString_ofNat]
    exact hdigits m
  | negSucc m =>
    rw [toList_toString_negSucc, List.all_cons, hdigits]
    decide

mutual

/-- The text of a value with legal texts is legal. -/
theorem all_isXmlChar_lineChars : (v : Json) → v.isXml = true →
    (lineChars .dense v).all isXmlChar = true
  | .null, _ | .bool true, _ | .bool false, _ => by decide +kernel
  | .int n, _ => all_isXmlChar_toString n
  | .str s, h => all_isXmlChar_stringChars h
  | .arr [], _ | .obj [], _ => by decide +kernel
  | .arr (v :: vs), h => by
    obtain ⟨hv, hvs⟩ := Bool.and_eq_true_iff.mp h
    have hmarks : isXmlChar '[' = true ∧ isXmlChar ']' = true := by decide
    rw [lineChars, lineItems_cons]
    simp [all_isXmlChar_lineChars v hv, all_isXmlChar_otherItems vs hvs, hmarks]
  | .obj ((name, v) :: ms), h => by
    obtain ⟨hfirst, hms⟩ := Bool.and_eq_true_iff.mp h
    obtain ⟨hname, hv⟩ := Bool.and_eq_true_iff.mp hfirst
    have hmarks : isXmlChar '{' = true ∧ isXmlChar '}' = true ∧ isXmlChar ':' = true := by decide
    rw [lineChars, lineMembers_cons]
    simp [all_isXmlChar_lineChars v hv, all_isXmlChar_otherMembers ms hms,
      all_isXmlChar_stringChars hname, hmarks]

/-- The text of items with legal texts is legal. -/
theorem all_isXmlChar_otherItems : (vs : List Json) → itemsXml vs = true →
    (otherItems vs).all isXmlChar = true
  | [], _ => rfl
  | v :: vs, h => by
    obtain ⟨hv, hvs⟩ := Bool.and_eq_true_iff.mp h
    have hcomma : isXmlChar ',' = true := by decide
    simp [otherItems, all_isXmlChar_lineChars v hv, all_isXmlChar_otherItems vs hvs, hcomma]

/-- The text of members with legal texts is legal. -/
theorem all_isXmlChar_otherMembers : (ms : List (String × Json)) → membersXml ms = true →
    (otherMembers ms).all isXmlChar = true
  | [], _ => rfl
  | (name, v) :: ms, h => by
    obtain ⟨hfirst, hms⟩ := Bool.and_eq_true_iff.mp h
    obtain ⟨hname, hv⟩ := Bool.and_eq_true_iff.mp hfirst
    have hmarks : isXmlChar ',' = true ∧ isXmlChar ':' = true := by decide
    simp [otherMembers, all_isXmlChar_lineChars v hv, all_isXmlChar_otherMembers ms hms,
      all_isXmlChar_stringChars hname, hmarks]

end

theorem all_isXmlChar_dense {v : Json} (h : v.isXml = true) :
    v.dense.toList.all isXmlChar = true := by
  rw [dense, String.toList_ofList]
  exact all_isXmlChar_lineChars v h

end Json

/-! ## Titles -/

namespace Form

/-- The text of a title is made of word characters, dashes and white space. -/
theorem mem_titleText {closing : Option Char} {cs : List Char} {c : Char}
    (h : c ∈ titleText closing cs) : isXmlChar c = true ∨ isBlank c = true := by
  have hspace : ∀ {cs : List Char}, (c ∈ cs → isXmlChar c = true ∨ isBlank c = true) →
      c ∈ ' ' :: cs → isXmlChar c = true ∨ isBlank c = true := by
    intro cs ih hc
    rcases List.mem_cons.mp hc with rfl | hc
    · exact Or.inr (by decide)
    · exact ih hc
  fun_induction titleText closing cs with
  | case1 => exact absurd h List.not_mem_nil
  | case2 _ _ ih => exact ih h
  | case3 _ _ _ _ ih => exact ih h
  | case4 _ _ _ ih => exact hspace ih h
  | case5 _ _ _ _ ih => exact hspace ih h
  | case6 d cs _ _ hkept ih =>
    rcases List.mem_cons.mp h with rfl | h
    · simp only [Bool.or_eq_true, beq_iff_eq] at hkept
      rcases hkept with (hword | hblank) | rfl
      · exact Or.inl (isXmlChar_of_isWordChar hword)
      · exact Or.inr hblank
      · exact Or.inl (by decide)
    · exact ih h
  | case7 _ _ _ _ _ ih => exact hspace ih h

/-- Titles are legal. -/
theorem all_isXmlChar_titleOf (prompt : String) : (titleOf prompt).toList.all isXmlChar = true := by
  have hwords : ∀ w ∈ blankWords (titleText none prompt.toList), Within [] w := by
    intro w hw c hc
    obtain ⟨hmem, hblank⟩ := mem_pieces hw c hc
    rcases mem_titleText hmem with h | h
    · exact Or.inl h
    · rw [h] at hblank
      cases hblank
  rw [titleOf]
  split
  · decide
  · rw [← within_nil_iff, String.toList_intercalate]
    refine within_intercalate (.of_all (by decide)) fun part hpart => ?_
    simp only [List.map_map, List.mem_map] at hpart
    obtain ⟨w, hw, rfl⟩ := hpart
    have hword := hwords w (List.mem_of_mem_filter hw)
    cases w with
    | nil => exact within_nil
    | cons c cs =>
      rw [Function.comp_apply, titleWord, String.toList_ofList, within_append]
      refine ⟨fun d hd => ?_, hword.of_subset fun _ => List.mem_cons_of_mem c⟩
      rcases mem_upperChar hd with rfl | hd
      · exact hword d List.mem_cons_self
      · exact Or.inl hd

end Form

/-! ## Fields -/

namespace Hint

/-- The values of an enumeration are words. -/
theorem isEnumValue_of_enumeration? {context : List Char} {values : List (List Char)}
    (h : enumeration? context = some values) : ∀ v ∈ values, isEnumValue v = true := by
  have hvalues : ∀ cs, enumValues? cs = some values → ∀ v ∈ values, isEnumValue v = true := by
    intro cs hcs
    rw [enumValues?] at hcs
    split at hcs
    · simp only [Option.ite_none_right_eq_some, Option.some.injEq, Bool.and_eq_true] at hcs
      obtain ⟨⟨_, hall⟩, rfl⟩ := hcs
      exact List.all_eq_true.mp hall
    · cases hcs
  induction context with
  | nil => cases h
  | cons c cs ih =>
    rw [enumeration?] at h
    cases hfirst : (if c = '(' then enumValues? cs else none) with
    | none =>
      rw [hfirst] at h
      exact ih h
    | some found =>
      rw [hfirst] at h
      cases h
      split at hfirst
      · exact hvalues cs hfirst
      · cases hfirst

theorem all_isXmlChar_of_isEnumValue {v : List Char} (h : isEnumValue v = true) :
    v.all isXmlChar = true := by
  cases v with
  | nil => rfl
  | cons c cs =>
    obtain ⟨hc, hcs⟩ := Bool.and_eq_true_iff.mp h
    refine List.all_eq_true.mpr (List.forall_mem_cons.mpr ⟨?_, fun d hd => ?_⟩)
    · exact isXmlChar_of_isAlphanum (by simp [Char.isAlphanum, hc])
    · have hd := List.all_eq_true.mp hcs d hd
      simp only [Bool.or_eq_true, beq_iff_eq] at hd
      rcases hd with hd | rfl
      · exact isXmlChar_of_isWordChar hd
      · decide

end Hint

namespace Field

/-- Options with legal values are legal. -/
theorem isXml_optionsOf {values : List (List Char)} (h : ∀ v ∈ values, v.all isXmlChar = true) :
    ∀ c ∈ optionsOf values, c.toJson.isXml = true := by
  intro c hc
  obtain ⟨v, hv, rfl⟩ := List.mem_map.mp hc
  have hlegal : Within [] v := within_nil_iff.mpr (h v hv)
  have hvalue : (String.ofList (lower v)).toList.all isXmlChar = true := by
    rw [String.toList_ofList]
    exact within_nil_iff.mp hlegal.lower
  have hlabel : (Text.label (String.ofList v)).toList.all isXmlChar = true := by
    refine within_nil_iff.mp (Within.label ?_)
    rwa [String.toList_ofList]
  exact Json.membersXml_cons (by decide) hvalue (Json.membersXml_cons (by decide) hlabel rfl)

theorem isXml_inferType (name : String) (context : List Char) :
    ∀ c ∈ (inferType name context).2, c.toJson.isXml = true := by
  have hnone : ∀ c ∈ ([] : List Choice), c.toJson.isXml = true :=
    fun c hc => absurd hc List.not_mem_nil
  rw [inferType]
  split
  · exact hnone
  · split
    · rename_i values hvalues
      split
      · exact hnone
      · exact isXml_optionsOf fun v hv =>
          Hint.all_isXmlChar_of_isEnumValue (Hint.isEnumValue_of_enumeration? hvalues v hv)
    · split
      · exact hnone
      · split
        · exact hnone
        · split
          · rename_i values hvalues
            obtain ⟨token, _, hlookup⟩ := List.exists_of_findSome?_eq_some hvalues
            obtain ⟨before, after, heq, _⟩ := List.lookup_eq_some_iff.mp hlookup
            have hall : (Hint.knownOptions.all fun entry =>
                entry.2.all fun v => v.toList.all isXmlChar) = true := by decide +kernel
            have hentry := List.all_eq_true.mp hall (token, values) (by rw [heq]; simp)
            refine isXml_optionsOf fun v hv => ?_
            obtain ⟨w, hw, rfl⟩ := List.mem_map.mp hv
            exact List.all_eq_true.mp hentry w hw
          · exact hnone

/-- The rules of types are legal. -/
theorem isXml_typeRules (tokens : List String) (type : FieldType) :
    ∀ r ∈ typeRules tokens type, r.toJson.isXml = true := by
  apply List.all_eq_true.mp
  cases type with
  | email | date | boolean | choice => rw [typeRules]; decide +kernel
  | number | text => rw [typeRules]; split <;> decide +kernel

theorem isXml_requiredRule {label : String} (h : label.toList.all isXmlChar = true) :
    (requiredRule label).toJson.isXml = true := by
  have hmessage : (label ++ " is required").toList.all isXmlChar = true := by
    rw [String.toList_append, List.all_append, h]
    decide
  change Json.membersXml (("type", .str "required") ::
    Json.ifGiven "message" (.str (label ++ " is required"))) = true
  exact Json.membersXml_cons (by decide) (by decide) (Json.membersXml_ifGiven (by decide) hmessage)

/-- A field with legal texts is legal. -/
theorem isXml_toJson {f : Field} (hname : f.name.isXml = true) (hlabel : f.label.isXml = true)
    (htype : f.type.isXml = true) (hrules : ∀ r ∈ f.rules, r.toJson.isXml = true)
    (hoptions : ∀ c ∈ f.options, c.toJson.isXml = true) : f.toJson.isXml = true := by
  have hvalidation : (Json.obj [("rules", .arr (f.rules.map Rule.toJson))]).isXml = true := by
    refine Json.membersXml_cons (by decide) ?_ rfl
    rw [Json.isXml, Json.itemsXml_eq_all]
    simpa using hrules
  refine Json.membersXml_cons (by decide) hname (Json.membersXml_cons (by decide) hlabel
    (Json.membersXml_cons (by decide) htype (Json.membersXml_cons (by decide) hvalidation ?_)))
  cases hempty : f.options.isEmpty with
  | true => rfl
  | false =>
    refine Json.membersXml_cons (by decide) ?_ rfl
    rw [Json.isXml, Json.itemsXml_eq_all]
    simpa using hoptions

/-- The field of a variable with a legal name is legal, whatever its clause says. -/
theorem isXml_infer {name : String} (hname : name.toList.all isXmlChar = true) (clause : String) :
    (infer name clause).toJson.isXml = true := by
  have hlabel : ∀ label, (infer name clause).label = .str label →
      label.toList.all isXmlChar = true := by
    intro label h
    rw [← Json.str.inj h]
    split
    · exact hname
    · exact within_nil_iff.mp (Within.label (within_nil_iff.mpr hname))
  have htype : ∀ type : FieldType, type.name.toList.all isXmlChar = true := by
    intro type
    cases type <;> decide
  refine isXml_toJson hname (hlabel _ rfl) (htype _) (fun r hr => ?_) (isXml_inferType _ _)
  rcases List.mem_append.mp hr with hr | hr
  · split at hr
    · exact absurd hr List.not_mem_nil
    · rw [List.mem_singleton.mp hr]
      exact isXml_requiredRule (hlabel _ rfl)
  · exact isXml_typeRules _ _ r hr

end Field

namespace Form

/-- A form for a state with a legal id is legal, whatever its prompt says. -/
theorem isXml_infer? {stateId prompt : String} {exclude : List String} {f : Form}
    (hid : stateId.toList.all isXmlChar = true) (h : infer? stateId prompt exclude = some f) :
    f.toJson.isXml = true := by
  rw [infer?] at h
  split at h
  · cases h
  · cases h
    have hform : ("form_" ++ stateId).toList.all isXmlChar = true := by
      rw [String.toList_append, List.all_append, hid]
      decide
    refine Json.membersXml_cons (by decide) hform (Json.membersXml_cons (by decide)
      (all_isXmlChar_titleOf prompt) (Json.membersXml_cons (by decide) ?_ rfl))
    rw [Json.isXml, Json.itemsXml_eq_all, List.map_map, List.all_map, List.all_eq_true]
    intro name hmem
    have hname := Placeholder.all_isXmlChar_of_mem_names (List.mem_of_mem_filter hmem)
    exact Field.isXml_infer hname _

end Form

end Swimlane
