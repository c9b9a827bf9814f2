import Swimlane.Proofs.FormArtifacts

/-!
# Forms by their keys

A user task refers to its form by a key, which is the id of the form made fit for XML.  The ids of
forms come from the document, and nothing keeps two of them apart: neither when a document is read,
nor when it is drawn.  So a key leads to all forms whose ids become the same, and it leads to the one
form of its user task if and only if there is no other.

## Key results

- `Parts.Of.formsUnder_eq`: the forms under a key are those of the states with this key
- `resolves_iff_nodup`: all keys lead to one entry if and only if they differ from each other
- `form_keys_resolve`: what the keys in a document lead to
-/

namespace Swimlane.Bpmn

/-! ## Keys and entries -/

/-- What is listed under a key. -/
def under (key : String) (entries : List (String × String)) : List String :=
  (entries.filter (·.1 = key)).map (·.2)

/-- As much is listed under a key as the key occurs. -/
theorem length_under (key : String) (entries : List (String × String)) :
    (under key entries).length = (entries.map (·.1)).count key := by
  rw [under, List.length_map, List.count, List.countP_map, List.countP_eq_length_filter]
  rfl

/-- An entry is listed under its key. -/
theorem mem_under {entry : String × String} {entries : List (String × String)}
    (h : entry ∈ entries) : entry.2 ∈ under entry.1 entries :=
  List.mem_map.mpr ⟨entry, List.mem_filter.mpr ⟨h, by simp⟩, rfl⟩

/-- Under the key of every entry there is this entry alone if and only if the keys differ from each
    other. -/
theorem resolves_iff_nodup (entries : List (String × String)) :
    (∀ entry ∈ entries, under entry.1 entries = [entry.2]) ↔ (entries.map (·.1)).Nodup := by
  rw [List.nodup_iff_count_le_one]
  constructor
  · intro h key
    by_cases hkey : key ∈ entries.map (·.1)
    · obtain ⟨entry, hentry, rfl⟩ := List.mem_map.mp hkey
      rw [← length_under, h entry hentry, List.length_singleton]
    · rw [List.count_eq_zero_of_not_mem hkey]
      exact Nat.zero_le 1
  · intro h entry hentry
    have hmem := mem_under hentry
    have hone : (under entry.1 entries).length = 1 :=
      Nat.le_antisymm (length_under entry.1 entries ▸ h entry.1) (List.length_pos_of_mem hmem)
    obtain ⟨text, htext⟩ := List.length_eq_one_iff.mp hone
    rw [htext, List.mem_singleton] at hmem
    rw [htext, hmem]

/-! ## Forms -/

/-- The key and the text of the form of a state, if it has one. -/
def keyedForm? (s : State) : Option (String × String) :=
  s.form?.bind fun form => form.toOption.map fun f => (Text.xmlId f.id.display, f.toJson.dense)

theorem formKey?_eq (s : State) : formKey? s = (keyedForm? s).map (·.1) := by
  rw [formKey?, keyedForm?]
  cases s.form? with
  | none => rfl
  | some form => cases form <;> rfl

/-- The id and the text of an element with a form. -/
def formEntry (m : Markup) : List (Option String × String) :=
  if m.tag? = some "zeebe:userTaskForm" then [(m.attribute? "id", m.inner)] else []

/-- The texts of the elements with forms whose id is the given key. -/
def formsUnder (m : Markup) (key : String) : List String :=
  ((m.collect formEntry).filter (·.1 = some key)).map (·.2)

variable {g : Graph} {settings : Settings} {p : Parts}

/-- The elements with forms are those of the states that have one, in their order. -/
theorem Parts.Of.collect_formEntry (h : p.Of g settings) :
    ((p.root g settings).markup 0).collect formEntry =
      (g.nodes.filterMap keyedForm?).map fun q => (some q.1, q.2) := by
  obtain ⟨forms, hasked, hforms⟩ := h.collect_formElements fun id text => [(id, text)]
  have hkeyed : g.nodes.filterMap keyedForm? =
      forms.map fun f => (Text.xmlId f.id.display, f.toJson.dense) := by
    have hsplit : g.nodes.filterMap keyedForm? = (g.nodes.filterMap (·.form?)).filterMap
        fun form => form.toOption.map fun f => (Text.xmlId f.id.display, f.toJson.dense) := by
      rw [List.filterMap_filterMap]
      rfl
    rw [hsplit, hasked, List.filterMap_map]
    exact congrFun List.filterMap_eq_map forms
  refine hforms.trans ?_
  rw [← List.map_eq_flatMap, hkeyed, List.map_map]
  rfl

/-- The forms under a key are those of the states with this key. -/
theorem Parts.Of.formsUnder_eq (h : p.Of g settings) (key : String) :
    formsUnder ((p.root g settings).markup 0) key = under key (g.nodes.filterMap keyedForm?) := by
  rw [formsUnder, h.collect_formEntry, List.filter_map, List.map_map, under]
  simp [Function.comp_def]

/-! ## Documents that were read -/

/-- The elements of a graph that was read, if there are any, are those of its states. -/
theorem elementIds_of_loaded (hg : g.Loaded) {ids : List (String × String)}
    (h : elementIds g = .ok ids) : ids = g.nodes.map elementOf := by
  by_cases hapart : AllApart g.nodes
  · exact Except.ok.inj (h.symm.trans (elementIds_of_apart hg hapart))
  · obtain ⟨s, hs⟩ := exists_firstCollision hapart
    cases h.symm.trans (elementIds_of_collision hg hs)

/-- The elements of the user tasks of a graph that was read refer to the keys of their forms. -/
theorem Parts.Of.references_of_loaded (h : p.Of g settings) (hg : g.Loaded) :
    ((p.root g settings).markup 0).collect formReferences =
      (g.nodes.filter fun s => s.body.kind = .userTask).map fun s =>
        (some (elementId .userTask s.id.display),
          (formKey? s).toList.map fun key => some ("camunda-forms:bpmn:" ++ key)) := by
  rw [h.collect_references fun s hs => labelledKind_of_loaded (hg.loaded s hs),
    elementIds_of_loaded hg h.ids]
  refine List.map_congr_left fun s hs => ?_
  obtain ⟨hs, hkind⟩ := List.mem_filter.mp hs
  rw [idOf_elementOf hg.toKeyed hs, of_decide_eq_true hkind]

/-- The document of a graph is read as the markup of its parts. -/
theorem parts_of_document {text : String} (h : document g settings = .ok text) :
    ∃ p : Parts, p.Of g settings ∧ Markup.read text = some ((p.root g settings).markup 0) := by
  obtain ⟨root, hroot, hdocument⟩ := Except.bind_eq_ok.mp h
  obtain ⟨p, hp, rfl⟩ := parts_of_definitions hroot
  cases hdocument
  exact ⟨p, hp, Markup.read_document isNamed_words hp.speaks_root⟩

/-- If a document can be read and drawn, then each user task with a form refers to it by a key, and
    the elements with this key hold the forms of all states with the same key, in order.  The key of
    each user task is the id of one element alone, which holds the form of this user task, if and
    only if no two forms have ids that become the same XML id. -/
theorem form_keys_resolve {d : Json} {g : Graph} (hg : Graph.ofJson d = .ok g)
    {settings : Settings} {text : String} (htext : document g settings = .ok text) :
    ∃ m, Markup.read text = some m ∧
      m.collect formReferences = (g.nodes.filter fun s => s.body.kind = .userTask).map (fun s =>
        (some (elementId .userTask s.id.display),
          (formKey? s).toList.map fun key => some ("camunda-forms:bpmn:" ++ key))) ∧
      (∀ key, formsUnder m key = under key (g.nodes.filterMap keyedForm?)) ∧
      ((∀ s ∈ g.nodes, ∀ q, keyedForm? s = some q → formsUnder m q.1 = [q.2]) ↔
        (g.nodes.filterMap formKey?).Nodup) := by
  obtain ⟨p, hp, hread⟩ := parts_of_document htext
  refine ⟨_, hread, hp.references_of_loaded (Graph.loaded_of_ofJson hg), hp.formsUnder_eq, ?_⟩
  have hkeys : g.nodes.filterMap formKey? = (g.nodes.filterMap keyedForm?).map (·.1) := by
    rw [List.map_filterMap]
    exact List.filterMap_congr fun s _ => formKey?_eq s
  rw [hkeys, ← resolves_iff_nodup]
  simp only [hp.formsUnder_eq, List.mem_filterMap]
  constructor
  · rintro h q ⟨s, hs, hq⟩
    exact h s hs q hq
  · intro h s hs q hq
    exact h q ⟨s, hs, hq⟩

/-- A form without fields. -/
def blankForm (id title : String) : Form := ⟨.str id, .str title, []⟩

/-- A document with two user tasks whose forms have the given ids. -/
def twoForms (first second : String) : Json :=
  .obj [("flow", .str "F"), ("start", .str "a"), ("states", .arr [
    .obj [("id", .str "a"), ("kind", .str "userTask"), ("prompt", .str "p"),
      ("form", (blankForm first "A").toJson), ("next", .str "b")],
    .obj [("id", .str "b"), ("kind", .str "userTask"), ("prompt", .str "p"),
      ("form", (blankForm second "B").toJson), ("next", .str "c")],
    .obj [("id", .str "c"), ("kind", .str "stop")]])]

/-- The keys of these forms differ, although nothing but a digit is kept of their ids. -/
theorem form_keys_resolve_twoForms : ∃ g text m,
    Graph.ofJson (twoForms "(1)" "[2]") = .ok g ∧ document g {} = .ok text ∧
    Markup.read text = some m ∧
    formsUnder m "1" = [(blankForm "(1)" "A").toJson.dense] ∧
    formsUnder m "2" = [(blankForm "[2]" "B").toJson.dense] := by
  have hrun : ((Graph.ofJson (twoForms "(1)" "[2]")).bind fun g => (document g {}).map fun _ =>
      g.nodes.filterMap keyedForm?).toOption =
      some [("1", (blankForm "(1)" "A").toJson.dense),
        ("2", (blankForm "[2]" "B").toJson.dense)] := by
    decide +kernel
  obtain ⟨g, hg, hrun⟩ := Except.bind_eq_ok.mp (Except.toOption_eq_some.mp hrun)
  obtain ⟨text, htext, hforms⟩ := Except.map_eq_ok.mp hrun
  obtain ⟨m, hm, _, hunder, _⟩ := form_keys_resolve hg htext
  refine ⟨g, text, m, hg, htext, hm, ?_, ?_⟩
  · rw [hunder, hforms]
    rfl
  · rw [hunder, hforms]
    rfl

/-- The ids of these forms become the same, so that both user tasks refer to two elements. -/
theorem formsUnder_of_twoForms : ∃ g text m,
    Graph.ofJson (twoForms "f.1" "f-1") = .ok g ∧ document g {} = .ok text ∧
    Markup.read text = some m ∧
    m.collect formReferences = [(some "UT_a", [some "camunda-forms:bpmn:f_1"]),
      (some "UT_b", [some "camunda-forms:bpmn:f_1"])] ∧
    formsUnder m "f_1" =
      [(blankForm "f.1" "A").toJson.dense, (blankForm "f-1" "B").toJson.dense] := by
  have hrun : ((Graph.ofJson (twoForms "f.1" "f-1")).bind fun g => (document g {}).map fun _ =>
      (g.nodes.filterMap keyedForm?, (g.nodes.filter fun s => s.body.kind = .userTask).map fun s =>
        (some (elementId .userTask s.id.display), (formKey? s).toList.map fun key =>
          some ("camunda-forms:bpmn:" ++ key)))).toOption =
      some ([("f_1", (blankForm "f.1" "A").toJson.dense),
          ("f_1", (blankForm "f-1" "B").toJson.dense)],
        [(some "UT_a", [some "camunda-forms:bpmn:f_1"]),
          (some "UT_b", [some "camunda-forms:bpmn:f_1"])]) := by
    decide +kernel
  obtain ⟨g, hg, hrun⟩ := Except.bind_eq_ok.mp (Except.toOption_eq_some.mp hrun)
  obtain ⟨text, htext, hfound⟩ := Except.map_eq_ok.mp hrun
  obtain ⟨hforms, hreferences⟩ := Prod.mk.inj hfound
  obtain ⟨p, hp, hread⟩ := parts_of_document htext
  refine ⟨g, text, _, hg, htext, hread, ?_, ?_⟩
  · rw [hp.references_of_loaded (Graph.loaded_of_ofJson hg), hreferences]
  · rw [hp.formsUnder_eq, hforms]
    rfl

end Swimlane.Bpmn
