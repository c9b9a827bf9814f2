import Swimlane.Proofs.Emission
import Swimlane.Proofs.MarkupSafety
import Swimlane.Proofs.ScriptDocuments
import Swimlane.Proofs.UniqueIds

/-!
# The same forms everywhere

The forms of a flow are written three times: as members of the script document, as values by the
ids of their states, and as texts inside of the BPMN document, where they are JSON without blanks in
escaped markup.  All three hold the same values in the same order.

## Key results

- `Markup.collect_markup`: what is found in markup is what is found in the tree behind it
- `State.formEntry?_toJson`: the form in the entry of a state
- `Graph.WellFormed.forms_eq`: the forms of a graph by the ids of its states
- `Parts.Of.collect_formText`, `Parts.Of.collect_formReferences`: the forms in a document
- `forms_agree`: all that is made of a story carries the same forms
-/

namespace Swimlane

/-- Taking what has a property, and then something of it. -/
theorem flatMap_ite_singleton {α β : Type} (p : α → Prop) [DecidablePred p] (f : α → β)
    (xs : List α) : (xs.flatMap fun x => if p x then [f x] else []) =
      (xs.filter fun x => p x).map f := by
  induction xs with
  | nil => rfl
  | cons x rest ih =>
    rw [List.flatMap_cons, ih, List.filter_cons]
    by_cases h : p x <;> simp [h]

/-! ## Looking into markup -/

namespace Markup

/-- The tag of an element. -/
def tag? : Markup → Option String
  | element tag _ _ => some tag
  | text _ => none

/-- The value of an attribute of an element. -/
def attribute? (name : String) : Markup → Option String
  | element _ attributes _ => Assoc.get? name attributes
  | text _ => none

/-- A text that is no element. -/
def bare : Markup → String
  | element .. => ""
  | text content => content

/-- The text that stands directly in an element. -/
def inner : Markup → String
  | element _ _ content => String.join (content.map bare)
  | text _ => ""

mutual

/-- An element and all elements inside of it, in the order of the text. -/
def elements : Markup → List Markup
  | element tag attributes content => element tag attributes content :: allElements content
  | text _ => []

/-- All elements in some markup. -/
def allElements : List Markup → List Markup
  | [] => []
  | m :: rest => elements m ++ allElements rest

end

/-- What a query finds in the elements of markup, in the order of the text. -/
def collect {α : Type} (query : Markup → List α) (m : Markup) : List α := m.elements.flatMap query

theorem allElements_append (ms ns : List Markup) :
    allElements (ms ++ ns) = allElements ms ++ allElements ns := by
  induction ms with
  | nil => rfl
  | cons m rest ih => rw [List.cons_append, allElements, allElements, ih, List.append_assoc]

/-- A text holds no elements. -/
theorem allElements_ofText (cs : List Char) : allElements (ofText cs) = [] := by
  rw [ofText]
  split <;> rfl

@[simp] theorem tag?_markup (level : Nat) (x : Xml) : (x.markup level).tag? = some x.tag := by
  cases x <;> rfl

@[simp] theorem attribute?_markup (name : String) (level : Nat) (x : Xml) :
    (x.markup level).attribute? name = x.attribute? name := by
  cases x <;> rfl

theorem inner_text (tag : String) (attributes : List (String × String)) (content : String)
    (level : Nat) : ((Xml.text tag attributes content).markup level).inner = content := by
  rw [Xml.markup, inner, ofText]
  split
  · rename_i hnil
    rw [← String.ofList_toList (s := content), hnil]
    rfl
  · simp [bare]

mutual

/-- What is found in the markup of an element is what is found in the element, if a query does not
    look at the blanks between elements. -/
theorem collect_markup {α : Type} {query : Markup → List α} {query' : Xml → List α} (level : Nat)
    (x : Xml) (h : ∀ e ∈ x.elements, ∀ k, query (e.markup k) = query' e) :
    (x.markup level).collect query = x.collect query' := by
  match x with
  | .leaf tag attributes =>
    have hself := h _ (Xml.self_mem_elements _) level
    rw [Xml.markup] at hself ⊢
    simp [collect, elements, allElements, hself]
  | .text tag attributes content =>
    have hself := h _ (Xml.self_mem_elements _) level
    rw [Xml.markup] at hself ⊢
    simp [collect, elements, allElements_ofText, hself]
  | .block tag attributes children =>
    have hself := h _ (Xml.self_mem_elements _) level
    have hinner := collect_allMarkup (level + 1) children fun c hc e he =>
      h e (by rw [Xml.elements_block]; exact List.mem_cons_of_mem _ (List.mem_flatMap.mpr ⟨c, hc, he⟩))
    have hgap : allElements [Xml.gap level] = [] := rfl
    rw [Xml.markup] at hself ⊢
    rw [collect, elements, List.flatMap_cons, hself, allElements_append, hgap, List.append_nil,
      hinner, Xml.collect_block]

theorem collect_allMarkup {α : Type} {query : Markup → List α} {query' : Xml → List α}
    (level : Nat) (xs : List Xml)
    (h : ∀ x ∈ xs, ∀ e ∈ x.elements, ∀ k, query (e.markup k) = query' e) :
    (allElements (Xml.allMarkup level xs)).flatMap query = xs.flatMap (Xml.collect query') := by
  match xs with
  | [] => rfl
  | x :: rest =>
    have hfirst := collect_markup level x (h x List.mem_cons_self)
    have hrest := collect_allMarkup level rest fun y hy => h y (List.mem_cons_of_mem _ hy)
    have hgap : (Xml.gap level).elements = [] := rfl
    rw [collect] at hfirst
    rw [Xml.allMarkup, allElements, allElements, hgap, List.nil_append, List.flatMap_append, hfirst,
      hrest, List.flatMap_cons]

end

end Markup

/-! ## Script documents -/

/-- The id and the form of the entry of a user task that has a form. -/
def Json.formEntry? (v : Json) : Option (Json × Json) :=
  match v.get? "kind", v.get? "id", v.get? "form" with
  | some kind, some id, some form =>
    if kind.isText Kind.userTask.name then some (id, form) else none
  | _, _, _ => none

/-- The user tasks with a form in a script document, each with its form. -/
def Json.formEntries (d : Json) : List (Json × Json) :=
  match d.get? "states" with
  | some (.arr entries) => entries.filterMap Json.formEntry?
  | _ => []

/-- The entry of a state has the form of the state. -/
theorem State.formEntry?_toJson {s : State} (h : s.Textual) :
    s.toJson.formEntry? = Graph.formOf? s := by
  cases h with
  | userTask id prompt assignee form next _ =>
    cases form <;> simp [Json.formEntry?, Graph.formOf?, State.form?, State.toJson, State.make,
      State.Body.members, State.Body.kind, Json.get?, Json.isText, Assoc.get?, Assoc.get?_append]
  | _ => simp [Json.formEntry?, Graph.formOf?, State.form?, State.toJson, State.make,
      State.Body.members, Json.get?, Assoc.get?, Assoc.get?_append]

namespace Graph

/-- The script document of a well-formed graph has the forms of its states. -/
theorem WellFormed.formEntries_toJson {g : Graph} (h : g.WellFormed) :
    g.toJson.formEntries = g.nodes.filterMap formOf? := by
  have hstates : g.toJson.formEntries =
      (g.nodes.map State.toJson).filterMap Json.formEntry? := rfl
  rw [hstates, List.filterMap_map]
  exact List.filterMap_congr fun s hs => State.formEntry?_toJson (h.textual s hs)

/-! ## Forms by states -/

/-- The states that have a form are those whose forms are listed. -/
theorem map_fst_formOf? {states : List State} (h : ∀ s ∈ states, s.Textual) :
    (states.filterMap formOf?).map (·.1) = (states.filter (·.form?.isSome)).map (·.id) := by
  induction states with
  | nil => rfl
  | cons s rest ih =>
    have hrest := ih fun t ht => h t (List.mem_cons_of_mem _ ht)
    cases hform : s.form? with
    | none =>
      have hnone : formOf? s = none := by simp [formOf?, hform]
      rw [List.filterMap_cons_none hnone, List.filter_cons_of_neg (by simp [hform]), hrest]
    | some form =>
      obtain ⟨f, rfl, _⟩ := Bpmn.form?_of_textual (h s List.mem_cons_self) hform
      have hsome : formOf? s = some (s.id, f.toJson) := by simp [formOf?, hform]
      rw [List.filterMap_cons_some hsome, List.filter_cons_of_pos (by simp [hform]), List.map_cons,
        List.map_cons, hrest]

/-- The forms of a well-formed graph are those of its states, in their order and under their
    ids, which differ from each other. -/
theorem WellFormed.forms_eq {g : Graph} (h : g.WellFormed) :
    g.nodes.filterMap formOf? = g.forms.map (fun p => (.str p.1, p.2)) ∧
    g.forms.map (·.1) = (g.nodes.filter (·.form?.isSome)).map (·.id.display) ∧
    (g.forms.map (·.1)).Nodup := by
  have hfst := map_fst_formOf? h.textual
  have hids : (g.nodes.filterMap formOf?).map (fun p => p.1.display) =
      (g.nodes.filter (·.form?.isSome)).map (·.id.display) := by
    have hdisplay := congrArg (List.map Json.display) hfst
    rwa [List.map_map, List.map_map] at hdisplay
  have hnodup : ((g.nodes.filter (·.form?.isSome)).map (·.id.display)).Nodup := by
    refine (List.filter_sublist.map _).nodup ?_
    rw [h.map_display]
    exact h.nodup
  -- All ids are texts, so they are stored like strings.
  have hpairs : g.nodes.filterMap formOf? =
      ((g.nodes.filterMap formOf?).map fun p => (p.1.display, p.2)).map
        fun p => (.str p.1, p.2) := by
    rw [List.map_map]
    refine (List.map_id' _).symm.trans (List.map_congr_left fun p hp => ?_)
    have hmem := List.mem_map_of_mem (f := (·.1)) hp
    rw [hfst] at hmem
    obtain ⟨s, hs, hid⟩ := List.mem_map.mp hmem
    have htext := (h.textual s (List.mem_of_mem_filter hs)).id_eq
    show p = (Json.str p.1.display, p.2)
    rw [← hid, ← htext, hid]
  have hforms : g.forms = (g.nodes.filterMap formOf?).map fun p => (p.1.display, p.2) := by
    have hkeys : (((g.nodes.filterMap formOf?).map fun p => (p.1.display, p.2)).map
        (·.1)).Nodup := by
      rw [List.map_map]
      exact hids ▸ hnodup
    rw [forms]
    conv => lhs; rw [hpairs, Assoc.ofPairs_str hkeys]
    rw [List.map_map]
    exact List.map_id' _
  refine ⟨by rw [hforms]; exact hpairs, ?_, ?_⟩
  · rw [hforms, List.map_map]
    exact hids
  · rw [hforms, List.map_map]
    exact hids ▸ hnodup

end Graph

/-- What a user task asks, and whom; other states ask nothing. -/
def State.question (s : State) : String × String :=
  match s.body with
  | .userTask prompt assignee _ => (prompt.display, assignee.display)
  | _ => ("", "")

/-- The variables that a question is about: those that its text mentions, without those that name
    the person. -/
def askedOf (question : String × String) : List String :=
  (Placeholder.names question.1).filter (!(Placeholder.names question.2).contains ·)

@[simp] theorem State.formed_question (s : State) : s.formed.question = s.question := by
  obtain ⟨id, label, body, next⟩ := s
  cases body <;> rfl

/-- There is a form if and only if there is something to ask for. -/
theorem Form.isSome_infer? (stateId prompt : String) (exclude : List String) :
    (Form.infer? stateId prompt exclude).isSome = true ↔
      (Placeholder.names prompt).filter (!exclude.contains ·) ≠ [] := by
  rw [Form.infer?]
  split
  · rename_i hnil
    rw [hnil]
    simp
  · rename_i hsome
    exact ⟨fun _ => hsome, fun _ => rfl⟩

/-- A state gets a form if and only if it asks for variables. -/
theorem State.form?_formed_iff {s : State} (h : s.Textual) :
    s.formed.form?.isSome = true ↔ askedOf s.question ≠ [] := by
  -- A state that is no user task asks nothing, and gets no form.
  have hnothing : askedOf ("", "") = [] := by cbv
  cases h with
  | userTask id prompt assignee form next _ =>
    have hform : (State.formed (.make id (.userTask (.str prompt) (.str assignee) (form.map .ok))
        (.str next))).form? = (Form.infer? id prompt (Placeholder.names assignee)).map .ok := rfl
    rw [hform, Option.isSome_map, Form.isSome_infer?]
    rfl
  | _ => simp [State.formed, State.form?, State.make, State.question, hnothing]

/-- With its forms, a well-formed graph has those of the states that ask for variables. -/
theorem Graph.WellFormed.forms_formed {g : Graph} (h : g.WellFormed) :
    g.formed.forms.map (·.1) = ((g.nodes.map fun s => (s.id.display, s.question)).filter
      fun q => !(askedOf q.2).isEmpty).map (·.1) := by
  obtain ⟨_, hids, _⟩ := h.formed.forms_eq
  rw [hids, formed_nodes, List.filter_map, List.filter_map, List.map_map, List.map_map]
  have hfilter : g.nodes.filter ((·.form?.isSome) ∘ State.formed) =
      g.nodes.filter ((fun q => !(askedOf q.2).isEmpty) ∘ fun s => (s.id.display, s.question)) := by
    refine List.filter_congr fun s hs => ?_
    rw [Bool.eq_iff_iff, Function.comp_apply, State.form?_formed_iff (h.textual s hs)]
    simp
  rw [hfilter]
  exact List.map_congr_left fun s _ => by simp

/-- The forms of a story, by the questions of the graph that is built of it. -/
theorem Graph.forms_of_parse {story : String} {statements : List Story.Statement}
    (h : Story.parse story = .ok statements) {questions : List (String × String × String)}
    (hq : ((ofStatements statements).map fun b =>
      b.nodes.map fun s => (s.id.display, s.question)).toOption = some questions) :
    ∃ built, ofStatements statements = .ok built ∧ built.WellFormed ∧
      ofStory story = .ok built.formed ∧
      built.formed.forms.map (·.1) =
        (questions.filter fun q => !(askedOf q.2).isEmpty).map (·.1) := by
  obtain ⟨built, hbuilt, hwell, hstory⟩ := ofStory_of_parse h
  rw [hbuilt] at hq
  cases Option.some.inj hq
  exact ⟨built, hbuilt, hwell, hstory, hwell.forms_formed⟩

namespace Bpmn

/-! ## Forms in documents -/

/-- The id of an element with a form, and the value that its text is read as. -/
def formText (m : Markup) : List (Option String × Except Json.ReadError Json) :=
  if m.tag? = some "zeebe:userTaskForm" then [(m.attribute? "id", Json.read m.inner)] else []

/-- The form that an element refers to. -/
def formReference (m : Markup) : List (Option String) :=
  if m.tag? = some "zeebe:formDefinition" then [m.attribute? "formKey"] else []

/-- The id of the element of a user task, and the forms that it refers to. -/
def formReferences (m : Markup) : List (Option String × List (Option String)) :=
  if m.tag? = some "bpmn:userTask" then [(m.attribute? "id", m.collect formReference)] else []

variable {g : Graph} {settings : Settings} {p : Parts} {ids : List (String × String)}
  {fs : List SequenceFlow}

/-- What is found in elements with a tag is found among those that have its role. -/
theorem collect_of_tag {α : Type} (tag : String) (f : Xml → List α) (x : Xml) :
    x.collect (fun e => if e.tag = tag then f e else []) =
      (elementsOf (roleOf tag) x).flatMap fun e => if e.tag = tag then f e else [] := by
  rw [elementsOf, Xml.collect, Xml.collect, List.flatMap_assoc]
  refine List.flatMap_congr fun e _ => ?_
  rw [pick]
  by_cases hrole : roleOf e.tag = roleOf tag
  · simp [hrole]
  · rw [if_neg hrole, if_neg fun htag => hrole (by rw [htag]), List.flatMap_nil]

/-- The text of a form is read as the form, and its id is that of its state with a word in
    front. -/
theorem forms_read {states : List State} (htextual : ∀ s ∈ states, s.Textual)
    (hnamed : FormsNamed states) (hids : ∀ s ∈ states, Text.IsIdentifier s.id.display)
    {forms : List Form} (h : states.filterMap (·.form?) = forms.map .ok) :
    forms.map (fun f => (some (Text.xmlId f.id.display), Json.read f.toJson.dense)) =
      (states.filterMap Graph.formOf?).map fun q => (some ("form_" ++ q.1.display), .ok q.2) := by
  induction states generalizing forms with
  | nil => cases forms with
    | nil => rfl
    | cons f more => cases h
  | cons s rest ih =>
    have hrest := @ih (fun t ht => htextual t (List.mem_cons_of_mem _ ht))
      (fun t ht => hnamed t (List.mem_cons_of_mem _ ht))
      (fun t ht => hids t (List.mem_cons_of_mem _ ht))
    cases hform : s.form? with
    | none =>
      have hnone : Graph.formOf? s = none := by simp [Graph.formOf?, hform]
      rw [List.filterMap_cons_none hform] at h
      rw [List.filterMap_cons_none hnone]
      exact hrest h
    | some form =>
      obtain ⟨f, rfl, hf⟩ := form?_of_textual (htextual s List.mem_cons_self) hform
      have hsome : Graph.formOf? s = some (s.id, f.toJson) := by simp [Graph.formOf?, hform]
      -- The id of the form is a name already, so nothing of it is lost in the document.
      obtain ⟨f', heq, hid⟩ := hnamed s List.mem_cons_self _ hform
      cases heq
      rw [List.filterMap_cons_some hform] at h
      cases forms with
      | nil => cases h
      | cons first more =>
        obtain ⟨hfirst, hmore⟩ := List.cons.inj h
        cases hfirst
        rw [List.filterMap_cons_some hsome, List.map_cons, List.map_cons, hrest hmore,
          Json.read_dense (Form.readable_toJson hf), hid, Json.display,
          Text.xmlId_of_isIdentifier (isIdentifier_form (hids s List.mem_cons_self))]

/-- What is found in the elements of forms, in the markup of a document, is found in the forms: each
    element has the id of its form made fit for XML, and the form as its text. -/
theorem Parts.Of.collect_formElements {α : Type} (h : p.Of g settings)
    (read : Option String → String → List α) : ∃ forms : List Form,
      g.nodes.filterMap (·.form?) = forms.map .ok ∧
      ((p.root g settings).markup 0).collect (fun m =>
        if m.tag? = some "zeebe:userTaskForm" then read (m.attribute? "id") m.inner else []) =
      forms.flatMap fun f => read (some (Text.xmlId f.id.display)) f.toJson.dense := by
  obtain ⟨forms, hasked, hforms⟩ := forms_eq_ok h.forms
  refine ⟨forms, hasked, ?_⟩
  have hrole : roleOf "zeebe:userTaskForm" = .form := by decide
  have helements : elementsOf .form (p.root g settings) = p.forms := h.elementsOf_root (by decide)
  -- All elements with the tag of forms hold a text.
  have hquery : ∀ e ∈ (p.root g settings).elements, ∀ k,
      (if (e.markup k).tag? = some "zeebe:userTaskForm" then
        read ((e.markup k).attribute? "id") (e.markup k).inner else []) =
      if e.tag = "zeebe:userTaskForm" then read (e.attribute? "id") e.content else [] := by
    intro e he k
    simp only [Markup.tag?_markup, Option.some.injEq, Markup.attribute?_markup]
    split
    · rename_i htag
      have hmem : e ∈ elementsOf .form (p.root g settings) := by
        rw [elementsOf, Xml.collect, List.mem_flatMap]
        exact ⟨e, he, by rw [pick, htag, if_pos hrole]; exact List.mem_singleton_self e⟩
      rw [helements, hforms] at hmem
      obtain ⟨f, _, rfl⟩ := List.mem_map.mp hmem
      rw [Markup.inner_text]
      rfl
    · rfl
  rw [Markup.collect_markup 0 _ hquery, collect_of_tag, hrole, helements, hforms, List.flatMap_map]
  simp [Xml.attribute?, Assoc.get?]

/-- The forms in a document are read back as they were. -/
theorem Parts.Of.collect_formText (h : p.Of g settings) (hwell : g.WellFormed)
    (hnamed : FormsNamed g.nodes) :
    ((p.root g settings).markup 0).collect formText =
      g.forms.map fun f => (some ("form_" ++ f.1), .ok f.2) := by
  obtain ⟨forms, hasked, hforms⟩ := h.collect_formElements fun id text => [(id, Json.read text)]
  have hread := forms_read hwell.textual hnamed
    (fun s hs => hwell.named _ (hwell.display_mem_keys hs)) hasked
  rw [hwell.forms_eq.1, List.map_map] at hread
  refine hforms.trans ?_
  rw [← List.map_eq_flatMap]
  exact hread

/-! ## References to forms -/

/-- The form that an element of a document refers to. -/
def referenceOf (x : Xml) : List (Option String) :=
  if x.tag = "zeebe:formDefinition" then [x.attribute? "formKey"] else []

theorem formReference_markup (e : Xml) (k : Nat) : formReference (e.markup k) = referenceOf e := by
  simp [formReference, referenceOf]

/-- An assignment refers to no form. -/
theorem collect_referenceOf_assignment {assignee : Json} {assigned : List Xml}
    (h : assignment assignee = .ok assigned) :
    assigned.flatMap (Xml.collect referenceOf) = [] := by
  rw [assignment] at h
  split at h
  · obtain ⟨text, _, h⟩ := Except.bind_eq_ok.mp h
    cases h
    simp [referenceOf]
  · cases h
    rfl

theorem collect_referenceOf_formDefinition {s : State} {form : Option (Except Misfit Form)}
    (hs : s.form? = form) {formed : List Xml} (h : formDefinition form = .ok formed) :
    formed.flatMap (Xml.collect referenceOf) = (formKey? s).toList.map fun key =>
      some ("camunda-forms:bpmn:" ++ key) := by
  rw [formKey?, hs]
  cases form with
  | none => cases h; rfl
  | some form =>
    obtain ⟨f, hf, h⟩ := Except.bind_eq_ok.mp h
    obtain ⟨id, hid, h⟩ := Except.bind_eq_ok.mp h
    cases h
    rw [hf, formId_eq_ok hid]
    simp [referenceOf, Xml.attribute?, Assoc.get?]

/-- The element of a user task refers to the form of its state, if it has one. -/
theorem collect_referenceOf_element {s : State} {x : Xml} (h : element ids fs s = .ok x)
    (hs : s.body.kind = .userTask) :
    x.collect referenceOf = (formKey? s).toList.map fun key =>
      some ("camunda-forms:bpmn:" ++ key) := by
  obtain ⟨kind, name, body, _, _, hbody, rfl⟩ := element_eq_ok h
  have hinner : body.flatMap (Xml.collect referenceOf) = (formKey? s).toList.map fun key =>
      some ("camunda-forms:bpmn:" ++ key) := by
    cases hb : s.body with
    | userTask prompt assignee form =>
      rw [elementBody, hb] at hbody
      obtain ⟨assigned, hassigned, hbody⟩ := Except.bind_eq_ok.mp hbody
      obtain ⟨formed, hformed, hbody⟩ := Except.bind_eq_ok.mp hbody
      have hform : s.form? = form := by rw [State.form?, hb]
      -- There is no extension around nothing.
      have hboth : body.flatMap (Xml.collect referenceOf) =
          (assigned ++ formed).flatMap (Xml.collect referenceOf) := by
        split at hbody
        · rename_i hnil
          cases hbody
          rw [hnil]
        · cases hbody
          simp [extension, referenceOf]
      rw [hboth, List.flatMap_append, collect_referenceOf_assignment hassigned, List.nil_append,
        collect_referenceOf_formDefinition hform hformed]
    | _ => rw [hb] at hs; cases hs
  -- Around the body there are only the element itself, its flows and the mark of a stop.
  have hself : ∀ attributes children,
      referenceOf (.block (tagOf kind) attributes children) = [] := by
    intro attributes children
    cases kind <;> simp [referenceOf, tagOf]
  have hmark : (terminator s).flatMap referenceOf = [] := by
    unfold terminator
    split <;> simp [referenceOf]
  rw [Xml.collect_block, hself]
  simp [hinner, incoming, outgoing, List.flatMap_map, referenceOf, hmark]

/-- The tag of an element tells the kind of its state, if its label does. -/
theorem tag_of_labelled {s : State} (hs : labelledKind s = .ok s.body.kind) {x : Xml}
    (h : element ids fs s = .ok x) : x.tag = tagOf s.body.kind := by
  obtain ⟨kind, name, body, hkind, _, _, rfl⟩ := element_eq_ok h
  cases hs.symm.trans hkind
  rfl

/-- The element of a state is found by the id of the state, if it is stored under it. -/
theorem idOf_elementOf (h : g.Keyed) {s : State} (hs : s ∈ g.nodes) :
    idOf (g.nodes.map elementOf) s.id = elementId s.body.kind s.id.display := by
  have hget : Assoc.get? s.id.display (g.nodes.map elementOf) =
      some (elementId s.body.kind s.id.display) := by
    refine Assoc.get?_of_mem ?_ (List.mem_map_of_mem hs)
    rw [List.map_map]
    exact h.map_display ▸ h.nodup
  rw [idOf, hget, Option.getD_some]

/-- The id of a form is that of its state with a word in front. -/
theorem formKey?_of_named {states : List State} (h : FormsNamed states) {s : State}
    (hs : s ∈ states) (hid : Text.IsIdentifier s.id.display) :
    ((formKey? s).toList.map fun key => some ("camunda-forms:bpmn:" ++ key)) =
      if s.form?.isSome then [some ("camunda-forms:bpmn:form_" ++ s.id.display)] else [] := by
  cases hform : s.form? with
  | none => simp [formKey?, hform]
  | some form =>
    obtain ⟨f, rfl, hf⟩ := h s hs form hform
    have hkey : formKey? s = some ("form_" ++ s.id.display) := by
      have hdisplay : f.id.display = "form_" ++ s.id.display := by rw [hf]; rfl
      simp only [formKey?, hform, hdisplay, Text.xmlId_of_isIdentifier (isIdentifier_form hid)]
    simp [hkey, ← String.append_assoc]

/-- The elements of user tasks refer to the forms of their states, and to no others. -/
theorem Parts.Of.collect_references (h : p.Of g settings)
    (hlabels : ∀ s ∈ g.nodes, labelledKind s = .ok s.body.kind) :
    ((p.root g settings).markup 0).collect formReferences =
      (g.nodes.filter fun s => s.body.kind = .userTask).map fun s =>
        (some (idOf p.ids s.id),
          (formKey? s).toList.map fun key => some ("camunda-forms:bpmn:" ++ key)) := by
  have hquery : ∀ e ∈ (p.root g settings).elements, ∀ k, formReferences (e.markup k) =
      if e.tag = "bpmn:userTask" then [(e.attribute? "id", e.collect referenceOf)] else [] := by
    intro e _ k
    have hinner := Markup.collect_markup k e fun x _ => formReference_markup x
    simp only [formReferences, Markup.tag?_markup, Option.some.injEq, Markup.attribute?_markup,
      hinner]
  have hrole : roleOf "bpmn:userTask" = .node := by decide
  have helements : elementsOf .node (p.root g settings) = startEvent p.flows :: p.elements :=
    h.elementsOf_root (by decide)
  -- The start event stands among the elements, but is no user task.
  have hstart : (startEvent p.flows).tag ≠ "bpmn:userTask" := by
    show "bpmn:startEvent" ≠ "bpmn:userTask"
    decide
  rw [Markup.collect_markup 0 _ hquery, collect_of_tag, hrole, helements, List.flatMap_cons,
    if_neg hstart, List.nil_append, ← flatMap_ite_singleton]
  refine Except.flatMap_eq_of_mapM (fun s hs x hx => ?_) h.elements
  rw [tag_of_labelled (hlabels s hs) hx]
  by_cases hkind : s.body.kind = .userTask
  · rw [if_pos (by rw [hkind]; rfl), if_pos hkind, id_of_element hx,
      collect_referenceOf_element hx hkind]
  · have htag : tagOf s.body.kind ≠ "bpmn:userTask" := by
      revert hkind
      cases s.body.kind <;> decide
    rw [if_neg htag, if_neg hkind]

/-- In a well-formed graph whose forms have the ids of their states, the elements of user tasks
    refer to these. -/
theorem Parts.Of.collect_formReferences (h : p.Of g settings) (hwell : g.WellFormed)
    (hnamed : FormsNamed g.nodes) :
    ((p.root g settings).markup 0).collect formReferences =
      (g.nodes.filter fun s => s.body.kind = .userTask).map fun s =>
        (some (elementId .userTask s.id.display), if s.form?.isSome then
          [some ("camunda-forms:bpmn:form_" ++ s.id.display)] else []) := by
  have hids : p.ids = g.nodes.map elementOf :=
    Except.ok.inj (h.ids.symm.trans (elementIds_of_wellFormed hwell))
  rw [h.collect_references fun s hs => labelledKind_eq (hwell.textual s hs)]
  refine List.map_congr_left fun s hs => ?_
  obtain ⟨hs, hkind⟩ := List.mem_filter.mp hs
  rw [hids, idOf_elementOf hwell.toKeyed hs, of_decide_eq_true hkind,
    formKey?_of_named hnamed hs (hwell.named _ (hwell.display_mem_keys hs))]

/-! ## All artifacts -/

/-- All that is made of a story carries the same forms, in the order of the states and under ids
    that differ from each other: the script document has them in the entries of user tasks, and
    they are listed by the ids of their states.  A state has a form if and only if it asks a person
    for a variable that does not name this person.  The BPMN document, if its numbers can be
    written, has an element for each form, of which the text is read as the form, and each user
    task refers to the element of its own form, and to no other; a long number is the only reason
    why there is no BPMN document. -/
theorem forms_agree {story : String} {g : Graph} (h : Graph.ofStory story = .ok g)
    (settings : Settings) :
    g.forms.map (·.1) = (g.nodes.filter (·.form?.isSome)).map (·.id.display) ∧
    (g.forms.map (·.1)).Nodup ∧
    g.toJson.formEntries = g.forms.map (fun f => (.str f.1, f.2)) ∧
    (∀ s ∈ g.nodes, s.form?.isSome = true ↔ askedOf s.question ≠ []) ∧
    ∃ ns, numbers g settings = .ok ns ∧
      ((∀ n ∈ ns, IsShort n) → ∃ text m, document g settings = .ok text ∧
        Markup.read text = some m ∧
        m.collect formText = g.forms.map (fun f => (some ("form_" ++ f.1), .ok f.2)) ∧
        m.collect formReferences = (g.nodes.filter fun s => s.body.kind = .userTask).map fun s =>
          (some (elementId .userTask s.id.display), if s.form?.isSome then
            [some ("camunda-forms:bpmn:form_" ++ s.id.display)] else [])) ∧
      ((∃ n ∈ ns, ¬ IsShort n) → document g settings = .error (.misfit .longInteger)) := by
  have hwell := (Graph.wellFormed_of_ofStory h).1
  have hnamed := formsNamed_of_ofStory h
  obtain ⟨hforms, hids, hnodup⟩ := hwell.forms_eq
  obtain ⟨ns, hns, hshort, hlong⟩ := document_of_wellFormed hwell settings
  refine ⟨hids, hnodup, hwell.formEntries_toJson.trans hforms, ?_, ns, hns, fun hall => ?_, hlong⟩
  · cases hparse : Story.parse story with
    | error e => rw [Graph.ofStory_of_error hparse] at h; cases h
    | ok statements =>
      obtain ⟨built, _, hbuilt, hstory⟩ := Graph.ofStory_of_parse hparse
      cases hstory.symm.trans h
      intro s hs
      rw [Graph.formed_nodes] at hs
      obtain ⟨s', hs', rfl⟩ := List.mem_map.mp hs
      rw [State.formed_question]
      exact State.form?_formed_iff (hbuilt.textual s' hs')
  · obtain ⟨text, htext⟩ := hshort hall
    obtain ⟨root, hroot, hdocument⟩ := Except.bind_eq_ok.mp htext
    obtain ⟨p, hp, rfl⟩ := parts_of_definitions hroot
    cases hdocument
    exact ⟨_, _, htext, Markup.read_document isNamed_words hp.speaks_root,
      hp.collect_formText hwell hnamed, hp.collect_formReferences hwell hnamed⟩

/-- A story that asks for variables among marks of markup. -/
def askingStory : String := "Flow: F\nAsk {a} for {email} & \"{age}\"\nAsk {b} for {b}"

/-- Its statements. -/
def askingStatements : List Story.Statement :=
  [.header ⟨1, "Flow: F"⟩ "F",
    .ask ⟨2, "Ask {a} for {email} & \"{age}\""⟩ "{a}" "{a} for {email} & \"{age}\"",
    .ask ⟨3, "Ask {b} for {b}"⟩ "{b}" "{b} for {b}"]

/-- The states that are built of it, with their questions. -/
def askingQuestions : List (String × String × String) :=
  [("ask_a_for_email_age", "{a} for {email} & \"{age}\"", "{a}"),
    ("ask_b_for_b", "{b} for {b}", "{b}"), ("end", "", "")]

theorem asked_askingQuestions :
    (askingQuestions.filter fun q => !(askedOf q.2).isEmpty).map (·.1) =
      ["ask_a_for_email_age"] := by cbv

/-- The form of the first state is in all that is made of this story; the second state asks a person
    for nothing but the person. -/
theorem forms_agree_askingStory : ∃ g text m, Graph.ofStory askingStory = .ok g ∧
    g.forms.map (·.1) = ["ask_a_for_email_age"] ∧
    g.toJson.formEntries = g.forms.map (fun f => (.str f.1, f.2)) ∧
    document g {} = .ok text ∧ Markup.read text = some m ∧
    m.collect formText = g.forms.map fun f => (some ("form_" ++ f.1), .ok f.2) := by
  have hparse : Story.parse askingStory = .ok askingStatements := by cbv
  have hstates : ((Graph.ofStatements askingStatements).map fun b =>
      b.nodes.map fun s => (s.id.display, s.question)).toOption = some askingQuestions := by
    decide +kernel
  obtain ⟨built, hbuilt, _, hstory, hids⟩ := Graph.forms_of_parse hparse hstates
  obtain ⟨_, _, hentries, _, ns, hns, hshort, _⟩ := forms_agree hstory {}
  have hall : ∀ n ∈ ns, IsShort n := by
    have hsmall : ((Graph.ofStatements askingStatements).bind fun b =>
        (numbers b.formed {}).map fun ns => ns.all fun n => n.natAbs < 10 ^ 4).toOption =
        some true := by decide +kernel
    rw [hbuilt] at hsmall
    obtain ⟨ns', hns', hsmall⟩ := Except.map_eq_ok.mp (Except.toOption_eq_some.mp hsmall)
    cases hns.symm.trans hns'
    exact isShort_of_small hsmall
  obtain ⟨text, m, htext, hread, hforms, _⟩ := hshort hall
  exact ⟨built.formed, text, m, hstory, hids.trans asked_askingQuestions, hentries, htext, hread,
    hforms⟩

/-- A story that asks one person for one variable. -/
def oneFormStory : String := "Flow: F\nAsk bob for {x}"

theorem asked_oneFormStory :
    ([("ask_bob_for_x", "bob for {x}", "bob"), ("end", "", "")].filter fun q =>
      !(askedOf q.2).isEmpty).map (·.1) = ["ask_bob_for_x"] := by cbv

/-- A story with a form of which there is no document: the head of the lanes is as wide as an
    integer can be written. -/
theorem document_of_oneFormStory : ∃ g, Graph.ofStory oneFormStory = .ok g ∧
    g.forms.map (·.1) = ["ask_bob_for_x"] ∧
    document g { geometry := { laneHeaderWidth := 10 ^ Numeral.maxDigits - 1 } } =
      .error (.misfit .longInteger) := by
  have hparse : Story.parse oneFormStory =
      .ok [.header ⟨1, "Flow: F"⟩ "F", .ask ⟨2, "Ask bob for {x}"⟩ "bob" "bob for {x}"] := by cbv
  have hstates : ((Graph.ofStatements [.header ⟨1, "Flow: F"⟩ "F",
      .ask ⟨2, "Ask bob for {x}"⟩ "bob" "bob for {x}"]).map fun b =>
      b.nodes.map fun s => (s.id.display, s.question)).toOption =
      some [("ask_bob_for_x", "bob for {x}", "bob"), ("end", "", "")] := by decide +kernel
  obtain ⟨built, _, hwell, hstory, hids⟩ := Graph.forms_of_parse hparse hstates
  refine ⟨built.formed, hstory, hids.trans asked_oneFormStory, ?_⟩
  -- The width is kept folded: as a numeral it has thousands of digits.
  generalize hsettings : (({ geometry :=
    { laneHeaderWidth := 10 ^ Numeral.maxDigits - 1 } }) : Settings) = settings
  obtain ⟨ns, hns, _, hlong⟩ := document_of_wellFormed hwell.formed settings
  exact hlong (exists_long_of_header hns (by rw [← hsettings]) (by rw [← hsettings]; decide))

end Bpmn

end Swimlane
